import XGrey.IpList
import XGrey.Lib.StepRun

/-!
# The Meaning of the Address Rules

What the address rules are for: a map from address prefixes to commands in which the
longest prefix of an address decides. `addRule` is the change that one `ip_add_sm` makes
to this map, in terms of prefixes only.

## Main results

* `ipAddSm_eq`: `ip_add_sm` on the tree is `addRule` on the rules it stores.
* `ipMatch_longest_rule`: after any calls of `ip_add_sm` and `ip_match`, an address gets
  the command of the longest rule that the calls have left.
-/

open CRuntime PrefixMap StepRun

namespace XGrey

/-- Rules for address prefixes. -/
abbrev IpRuleMap := List Bool → Option ℤ

/-- The rules at the start: everything is greylisted. -/
def initRules : IpRuleMap := Function.update (fun _ => none) [] (some Ift.greylist)

/-- Set or remove the rule for the first `mask` bits of an address. The rule for the empty
prefix can be replaced but not removed. -/
def addRule (rules : IpRuleMap) (ip : List UInt8) (mask cmd : ℤ) : IpRuleMap :=
  if mask = 0 ∧ cmd = Ift.remove then rules
  else Function.update rules (prefixBits ip mask.toNat) (installed cmd)

/-- `v` is the command of the longest rule that matches an address. -/
def LongestRule (rules : IpRuleMap) (addr : List Bool) (v : ℤ) : Prop :=
  ∃ q, q <+: addr ∧ rules q = some v ∧
    ∀ q', q' <+: addr → q.length < q'.length → rules q' = none

/-- The rules of the tree at the start. -/
theorem ipRules_init : ipRules IpList.init.tree = initRules := by
  funext q
  rcases q with _ | ⟨b, q⟩
  · rfl
  · cases b <;> simp [ipRules, IpList.init, initRules]

/-- By how much the number of rules changes with it. The rule for the empty prefix is
counted from the start. -/
def addedCount (rules : IpRuleMap) (ip : List UInt8) (mask cmd : ℤ) : ℤ :=
  if mask = 0 then 0
  else (installed cmd).isSome.toNat - (rules (prefixBits ip mask.toNat)).isSome.toNat

/-- What `ip_add_sm` does on any tree that has a root, with any mask that the assertions and
the address allow. -/
theorem ipAddSm_spec {ndebug : Bool} {l : IpList} (hnil : l.tree.isNil = false)
    {ip : List UInt8} {mask : ℤ} (hmask : 0 ≤ mask) (hcheck : ndebug = true ∨ mask < 33)
    (hlen : mask ≤ 8 * ip.length) (cmd : ℤ) :
    ∃ l', ipAddSm ndebug l ip mask cmd = .ok l' ∧ l'.tree.isNil = false ∧
      (l'.tree.height : ℤ) ≤ max (l.tree.height : ℤ) (mask + 1) ∧
      (cmd ≠ Ift.none → ipRules l'.tree = addRule (ipRules l.tree) ip mask cmd) ∧
      l'.ipcnt = l.ipcnt + addedCount (ipRules l.tree) ip mask cmd := by
  have hpass : cassert ndebug (mask < 33) = .ok () := cassert_eq_ok.mpr hcheck
  rw [ipAddSm, cassert_of (by omega), ok_bind, hpass, ok_bind]
  by_cases hzero : mask = 0
  · subst hzero
    rw [if_pos rfl, addedCount, if_pos rfl, add_zero]
    obtain ⟨tree, ipcnt⟩ := l
    cases tree with
    | nil => cases hnil
    | node n zero one =>
        refine ⟨_, rfl, ?_⟩
        by_cases hr : cmd = Ift.remove
        · rw [if_neg (not_not.mpr hr), addRule, if_pos ⟨rfl, hr⟩]
          exact ⟨rfl, le_max_left _ _, fun _ => rfl, rfl⟩
        · rw [if_pos hr, addRule, if_neg (fun h => hr h.2)]
          refine ⟨rfl, le_max_left _ _, fun hcmd => ?_, rfl⟩
          have hrule : ruleOf { n with cmd := cmd } = some cmd := if_neg hcmd
          funext q
          rcases q with _ | ⟨b, q⟩
          · simpa [installed, hr, prefixBits] using hrule
          · cases b <;> simp [ipRules, prefixBits]
  · rw [if_neg hzero, if_neg (by omega), addedCount, if_neg hzero, addRule,
      if_neg (fun h => hzero h.1)]
    obtain ⟨t', ipcnt', hloop, hnil', hheight, hrules, hcnt⟩ :=
      ipAddLoop_eq ip cmd mask.toNat atDepth_zero (fun k hk => by omega) hnil l.ipcnt
    rw [hloop, ok_bind]
    refine ⟨_, rfl, hnil', ?_, hrules, ?_⟩
    · dsimp only
      omega
    · dsimp only
      rw [prefixBits]
      omega

/-- The rule for the empty prefix stays, though its command may change. -/
theorem addRule_nil {rules : IpRuleMap} (h : rules [] ≠ none) (ip : List UInt8)
    {mask : ℤ} (hmask : 0 ≤ mask) (cmd : ℤ) : addRule rules ip mask cmd [] ≠ none := by
  rw [addRule]
  by_cases hzero : mask = 0
  · subst hzero
    by_cases hr : cmd = Ift.remove
    · rw [if_pos ⟨rfl, hr⟩]
      exact h
    · rw [if_neg (fun h => hr h.2), installed, if_neg hr]
      change Function.update rules [] (some cmd) [] ≠ none
      rw [Function.update_self]
      exact Option.some_ne_none cmd
  · obtain ⟨k, hk⟩ : ∃ k, mask.toNat = k + 1 := ⟨mask.toNat - 1, by omega⟩
    rw [if_neg (fun h => hzero h.1), hk, prefixBits, bitsFrom_succ,
      Function.update_of_ne (List.cons_ne_nil _ _).symm]
    exact h

/-- **`ip_add_sm` changes the rules as `addRule` says.** -/
theorem ipAddSm_eq (ndebug : Bool) {l : IpList} (h : IpTreeOk l.tree) {ip : List UInt8}
    (hlen : 4 ≤ ip.length) {mask cmd : ℤ} (hmask : 0 ≤ mask) (hmask' : mask ≤ 32)
    (hcmd : cmd ≠ Ift.none) :
    ∃ l', ipAddSm ndebug l ip mask cmd = .ok l' ∧ IpTreeOk l'.tree ∧
      ipRules l'.tree = addRule (ipRules l.tree) ip mask cmd := by
  obtain ⟨l', hadd, hnil, hheight, hrules, -⟩ :=
    @ipAddSm_spec ndebug l h.isNil ip mask hmask (Or.inr (by omega)) (by omega) cmd
  refine ⟨l', hadd, ⟨hnil, ?_, ?_⟩, hrules hcmd⟩
  · have := h.height_le
    omega
  · rw [hrules hcmd]
    exact addRule_nil h.root ip hmask cmd

/-! ### Runs of the address list -/

/-- A use of the address list. -/
inductive IpCall
  /-- `ip_add_sm(ip,4,mask,cmd)` -/
  | add (ip : List UInt8) (mask cmd : ℤ)
  /-- `ip_match(ip,4)` -/
  | lookup (ip : List UInt8)

/-- The calls that the address list is made for: prefix lengths of IPv4 addresses, the
commands of the name table, and buffers that hold an address, with room for the octet
that a walk looks at behind it. -/
def IpCall.Valid : IpCall → Prop
  | .add ip mask cmd => 4 ≤ ip.length ∧ 0 ≤ mask ∧ mask ≤ 32 ∧
      (cmd = Ift.greylist ∨ cmd = Ift.accept ∨ cmd = Ift.reject ∨ cmd = Ift.remove ∨
        cmd = Ift.expire)
  | .lookup ip => 5 ≤ ip.length

/-- One call, with the command that a lookup returns. -/
def ipCallStep (ndebug : Bool) (l : IpList) : IpCall → Exec (IpList × Option ℤ)
  | .add ip mask cmd => do
      let l ← ipAddSm ndebug l ip mask cmd
      .ok (l, none)
  | .lookup ip => do
      let (cmd, tree) ← ipMatch ndebug l.tree ip
      .ok ({ l with tree := tree }, some cmd)

/-- What a call does to the rules: a lookup does nothing. -/
def ruleStep (rules : IpRuleMap) : IpCall → IpRuleMap
  | .add ip mask cmd => addRule rules ip mask cmd
  | .lookup _ => rules

/-- The rules that some calls leave, from those at the start. -/
def rulesAfter (calls : List IpCall) : IpRuleMap := calls.foldl ruleStep initRules

/-- One call keeps a tree of rules and changes its rules as it should. -/
theorem ipCallStep_eq (ndebug : Bool) {l : IpList} (h : IpTreeOk l.tree) {c : IpCall}
    (hc : c.Valid) :
    ∃ l' out, ipCallStep ndebug l c = .ok (l', out) ∧ IpTreeOk l'.tree ∧
      ipRules l'.tree = ruleStep (ipRules l.tree) c := by
  cases c with
  | add ip mask cmd =>
      obtain ⟨hlen, hmask, hmask', hcmd⟩ := hc
      have hne : cmd ≠ Ift.none := by
        rintro rfl
        revert hcmd
        decide
      obtain ⟨l', hadd, hok, hrules⟩ := ipAddSm_eq ndebug h hlen hmask hmask' hne
      exact ⟨l', none, by rw [ipCallStep, hadd, ok_bind], hok, hrules⟩
  | lookup ip =>
      obtain ⟨v, path, -, hmatch⟩ := ipMatch_eq ndebug h hc
      exact ⟨_, some v, by rw [ipCallStep, hmatch, ok_bind], h.countHit path,
        ipRules_modify_countHit l.tree path⟩

/-- A run of calls succeeds and leaves a tree with the rules that the calls describe. -/
theorem run_ipCallStep (ndebug : Bool) {l : IpList} (h : IpTreeOk l.tree)
    {calls : List IpCall} (hcalls : ∀ c ∈ calls, c.Valid) :
    ∃ l' outs, run (ipCallStep ndebug) l calls = .ok (l', outs) ∧ IpTreeOk l'.tree ∧
      ipRules l'.tree = calls.foldl ruleStep (ipRules l.tree) := by
  induction calls generalizing l with
  | nil => exact ⟨l, [], rfl, h, rfl⟩
  | cons c calls ih =>
      obtain ⟨hc, hcalls⟩ := List.forall_mem_cons.mp hcalls
      obtain ⟨l₁, out, hstep, hok, hrules⟩ := ipCallStep_eq ndebug h hc
      obtain ⟨l', outs, hrun, hok', hrules'⟩ := ih hok hcalls
      refine ⟨l', out :: outs, ?_, hok', ?_⟩
      · rw [run_cons_of_ok calls hstep, hrun]
        rfl
      · rw [hrules', hrules, List.foldl_cons]

/-- **The longest rule decides.** After any calls on the tree at the start, every address
gets the command of the longest rule that these calls have left. It depends on the four
octets of the address only, the lookup leaves every other verdict as it was, and there is
always a rule for the empty prefix. -/
theorem ipMatch_longest_rule (ndebug : Bool) (calls : List IpCall)
    (hcalls : ∀ c ∈ calls, c.Valid) (a : List UInt8) (ha : 5 ≤ a.length) :
    ∃ l outs v t, run (ipCallStep ndebug) IpList.init calls = .ok (l, outs) ∧
      ipMatch ndebug l.tree a = .ok (v, t) ∧
      LongestRule (rulesAfter calls) (prefixBits a 32) v ∧
      rulesAfter calls [] ≠ none ∧
      (∀ b : List UInt8, 5 ≤ b.length → b.take 4 = a.take 4 →
        ∃ t', ipMatch ndebug l.tree b = .ok (v, t')) ∧
      ∀ b : List UInt8, 5 ≤ b.length →
        ∃ w t' t'', ipMatch ndebug l.tree b = .ok (w, t') ∧ ipMatch ndebug t b = .ok (w, t'') := by
  obtain ⟨l, outs, hrun, hok, hrules⟩ := run_ipCallStep ndebug ipTreeOk_init hcalls
  obtain ⟨v, path, hv, hmatch⟩ := ipMatch_eq ndebug hok ha
  rw [ipRules_init] at hrules
  change _ = rulesAfter calls at hrules
  refine ⟨l, outs, v, _, hrun, hmatch, ?_, ?_, ?_, ?_⟩
  · rw [← hrules]
    exact longest_eq_some_iff.mp hv
  · rw [← hrules]
    exact hok.root
  · intro b hb hab
    obtain ⟨w, path', hw, hmatch'⟩ := ipMatch_eq ndebug hok hb
    have hbits : prefixBits b 32 = prefixBits a 32 := by
      refine prefixBits_congr fun i hi => ?_
      have hget : ∀ c : List UInt8, c.getD i 0 = (c.take 4).getD i 0 := fun c => by
        simp [show i < 4 by omega]
      rw [hget a, hget b, hab]
    rw [hbits, hv] at hw
    cases hw
    exact ⟨_, hmatch'⟩
  · intro b hb
    obtain ⟨w, path', hw, hmatch'⟩ := ipMatch_eq ndebug hok hb
    obtain ⟨w', path'', hw', hmatch''⟩ :=
      ipMatch_eq ndebug (hok.countHit path) hb
    rw [ipRules_modify_countHit, hw] at hw'
    cases hw'
    exact ⟨w, _, _, hmatch', hmatch''⟩

/-- Two nested rules, the inner one below a removed one, and an address that both match. -/
theorem ipMatch_longest_rule_nested :
    ∃ l outs v t,
      run (ipCallStep false) IpList.init
        [.add [10, 0, 0, 0] 8 Ift.reject, .add [10, 1, 0, 0] 16 Ift.accept,
          .lookup [10, 1, 2, 3, 0], .add [10, 1, 2, 0] 24 Ift.expire,
          .add [10, 1, 2, 0] 24 Ift.remove] = .ok (l, outs) ∧
      ipMatch false l.tree [10, 1, 2, 3, 0] = .ok (v, t) ∧
      LongestRule (rulesAfter
        [.add [10, 0, 0, 0] 8 Ift.reject, .add [10, 1, 0, 0] 16 Ift.accept,
          .lookup [10, 1, 2, 3, 0], .add [10, 1, 2, 0] 24 Ift.expire,
          .add [10, 1, 2, 0] 24 Ift.remove]) (prefixBits [10, 1, 2, 3, 0] 32) v := by
  obtain ⟨l, outs, v, t, hrun, hmatch, hlong, -⟩ := ipMatch_longest_rule false
    [.add [10, 0, 0, 0] 8 Ift.reject, .add [10, 1, 0, 0] 16 Ift.accept,
      .lookup [10, 1, 2, 3, 0], .add [10, 1, 2, 0] 24 Ift.expire,
      .add [10, 1, 2, 0] 24 Ift.remove]
    (by simp [IpCall.Valid, Ift.greylist, Ift.accept, Ift.reject, Ift.remove, Ift.expire])
    [10, 1, 2, 3, 0] (by decide)
  exact ⟨l, outs, v, t, hrun, hmatch, hlong⟩

end XGrey
