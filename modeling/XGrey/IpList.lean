import Mathlib.Data.Nat.Bitwise
import XGrey.Lib.CRuntime
import XGrey.Lib.PrefixMap
import XGrey.Protocol

/-!
# The Address Rules

The tree of rules for client addresses (`server/iplist.c`). A rule is an address prefix
with a command. The tree is a binary trie over the bits of the address, most significant
bit first; a node that carries no rule, because it was only passed on the way or because
its rule was removed, has the command `IFT_NONE`.

Both walks keep a byte offset and a one-bit mask that rolls over every eight levels
(`roll`). `AtDepth` says which pair belongs to which depth.

## Main results

* `ipMatch_eq`: on a tree of rules, `ip_match` returns the command of the longest installed
  prefix and changes no rule.
* `ipAddSm_eq`: `ip_add_sm` sets or removes the rule of one prefix.
-/

open CRuntime PrefixMap

namespace XGrey

/-- `struct ipnode`, apart from its links; `cmd` is its field `match`. -/
structure IpNode where
  count : ℕ
  cmd : ℤ
  deriving DecidableEq

/-- The tree of rules and `g_ipcnt`. -/
structure IpList where
  /-- `g_tree` -/
  tree : BinTrie IpNode
  /-- `g_ipcnt`, an integer because it is also counted down -/
  ipcnt : ℤ
  deriving DecidableEq

/-- The tree with which the server starts: everything is greylisted. -/
def IpList.init : IpList where
  tree := .node { count := 0, cmd := Ift.greylist } .nil .nil
  ipcnt := 1

/-- The step to the next bit: after the last bit of an octet, the first of the next. -/
def roll (off : ℤ) (bit : ℕ) : ℤ × ℕ :=
  if bit = 0 then (off + 1, 0x80) else (off, bit)

/-- The loop of `ip_match` at the node with path `path`, where `m` is the last node seen
that carries a rule. Leaving the loop without a node would mean that the root decides. -/
def ipMatchLoop (ip : List UInt8) :
    BinTrie IpNode → List Bool → List Bool × IpNode → ℤ → ℕ →
      Exec (Option (List Bool × IpNode))
  | .nil, _, _, _, _ => .ok none
  | .node n zero one, path, m, off, bit => do
      let m := if n.cmd ≠ Ift.none then (path, n) else m
      let (off, bit) := roll off bit
      let octet ← peek ip off
      if octet.toNat &&& bit = 0 ∧ zero.isNil = false then
        ipMatchLoop ip zero (path ++ [false]) m off (bit >>> 1)
      else if octet.toNat &&& bit ≠ 0 ∧ one.isNil = false then
        ipMatchLoop ip one (path ++ [true]) m off (bit >>> 1)
      else
        .ok (some m)

/-- `match->count++` -/
def countHit (n : IpNode) : IpNode := { n with count := n.count + 1 }

/-- `ip_match`: the command for an address, with the tree in which the node that decided
has been counted. -/
def ipMatch (ndebug : Bool) (t : BinTrie IpNode) (ip : List UInt8) :
    Exec (ℤ × BinTrie IpNode) :=
  match t with
  | .nil => .error .memory
  | .node root zero one => do
      match ← ipMatchLoop ip (.node root zero one) [] ([], root) (-1) 0 with
      | none => .ok (root.cmd, .node root zero one)
      | some (path, n) =>
          let t := (BinTrie.node root zero one).modify countHit path
          cassert ndebug (n.cmd ≠ Ift.none)
          .ok (n.cmd, t)

/-- A child of a node, made if it is missing. -/
def childOrNew (t : BinTrie IpNode) : BinTrie IpNode :=
  if t.isNil then .node { count := 0, cmd := Ift.none } .nil .nil else t

/-- The end of `ip_add_sm`, on the node of the prefix. -/
def ipInstall (cmd : ℤ) (n : IpNode) (ipcnt : ℤ) : IpNode × ℤ :=
  if n.cmd = Ift.none ∧ cmd = Ift.remove then (n, ipcnt)
  else
    let ipcnt := if n.cmd = Ift.none then ipcnt + 1 else ipcnt
    if cmd = Ift.remove then ({ n with cmd := Ift.none }, ipcnt - 1)
    else ({ n with cmd := cmd }, ipcnt)

/-- The walk of `ip_add_sm`, over `mask` more bits of the address. -/
def ipAddLoop (ip : List UInt8) (cmd : ℤ) :
    ℕ → BinTrie IpNode → ℤ → ℕ → ℤ → Exec (BinTrie IpNode × ℤ)
  | _, .nil, _, _, _ => .error .memory
  | 0, .node n zero one, _, _, ipcnt =>
      let r := ipInstall cmd n ipcnt
      .ok (.node r.1 zero one, r.2)
  | mask + 1, .node n zero one, off, bit, ipcnt => do
      let (off, bit) := roll off bit
      let octet ← peek ip off
      if octet.toNat &&& bit = 0 then do
        let (zero, ipcnt) ← ipAddLoop ip cmd mask (childOrNew zero) off (bit >>> 1) ipcnt
        .ok (.node n zero one, ipcnt)
      else do
        let (one, ipcnt) ← ipAddLoop ip cmd mask (childOrNew one) off (bit >>> 1) ipcnt
        .ok (.node n zero one, ipcnt)

/-- `ip_add_sm`. The walk counts the mask down to zero, so that a negative one takes it
beyond any address. -/
def ipAddSm (ndebug : Bool) (l : IpList) (ip : List UInt8) (mask cmd : ℤ) :
    Exec IpList := do
  cassert ndebug (mask > -1)
  cassert ndebug (mask < 33)
  if mask = 0 then
    match l.tree with
    | .nil => .error .memory
    | .node n zero one =>
        .ok (if cmd ≠ Ift.remove then { l with tree := .node { n with cmd := cmd } zero one }
          else l)
  else if mask < 0 then
    .error .memory
  else do
    let (tree, ipcnt) ← ipAddLoop ip cmd mask.toNat l.tree (-1) 0 l.ipcnt
    .ok { tree := tree, ipcnt := ipcnt }

/-! ### The bits of an address -/

/-- Bit `d` of an address, counted from the most significant one of the first octet. -/
def bitAt (ip : List UInt8) (d : ℕ) : Bool := (ip.getD (d / 8) 0).toNat.testBit (7 - d % 8)

/-- The `n` bits of an address from bit `d` on. -/
def bitsFrom (ip : List UInt8) (d n : ℕ) : List Bool := (List.range' d n).map (bitAt ip)

/-- The first `n` bits of an address. -/
def prefixBits (ip : List UInt8) (n : ℕ) : List Bool := bitsFrom ip 0 n

theorem bitsFrom_succ (ip : List UInt8) (d n : ℕ) :
    bitsFrom ip d (n + 1) = bitAt ip d :: bitsFrom ip (d + 1) n := by
  rw [bitsFrom, List.range'_succ, List.map_cons]
  rfl

@[simp] theorem bitsFrom_zero (ip : List UInt8) (d : ℕ) : bitsFrom ip d 0 = [] := rfl

theorem length_prefixBits (ip : List UInt8) (n : ℕ) : (prefixBits ip n).length = n := by
  simp [prefixBits, bitsFrom]

/-- The first bits of an address depend on its first octets. -/
theorem prefixBits_congr {ip ip' : List UInt8} {n : ℕ}
    (h : ∀ i, i < (n + 7) / 8 → ip.getD i 0 = ip'.getD i 0) :
    prefixBits ip n = prefixBits ip' n := by
  refine List.map_congr_left fun d hd => ?_
  obtain ⟨-, hd⟩ := List.mem_range'_1.mp hd
  rw [bitAt, bitAt, h (d / 8) (by omega)]

/-- The byte offset and the one-bit mask of a walk before it looks at bit `d`. -/
def AtDepth (d : ℕ) (off : ℤ) (bit : ℕ) : Prop :=
  (d % 8 = 0 ∧ bit = 0 ∧ off = (d / 8 : ℕ) - 1) ∨
    (d % 8 ≠ 0 ∧ bit = 2 ^ (7 - d % 8) ∧ off = (d / 8 : ℕ))

theorem atDepth_zero : AtDepth 0 (-1) 0 := Or.inl ⟨rfl, rfl, rfl⟩

/-- The step to the next bit finds its octet and its place in it. -/
theorem AtDepth.roll_eq {d : ℕ} {off : ℤ} {bit : ℕ} (h : AtDepth d off bit) :
    roll off bit = (((d / 8 : ℕ) : ℤ), 2 ^ (7 - d % 8)) := by
  rcases h with ⟨hd, rfl, rfl⟩ | ⟨hd, rfl, rfl⟩
  · rw [roll, if_pos rfl, hd]
    simp
  · rw [roll, if_neg (Nat.two_pow_pos _).ne']

/-- Shifting the mask leads to the next bit. -/
theorem AtDepth.next (d : ℕ) : AtDepth (d + 1) (d / 8 : ℕ) (2 ^ (7 - d % 8) >>> 1) := by
  by_cases h : d % 8 = 7
  · refine Or.inl ⟨by omega, by rw [h]; rfl, ?_⟩
    omega
  · refine Or.inr ⟨by omega, ?_, by omega⟩
    obtain ⟨k, hk⟩ : ∃ k, 7 - d % 8 = k + 1 := ⟨6 - d % 8, by omega⟩
    have hk' : 7 - (d + 1) % 8 = k := by omega
    rw [hk, hk', Nat.shiftRight_eq_div_pow, pow_one, pow_succ, Nat.mul_div_cancel _ (by omega)]

/-- The test of one bit of an octet. -/
theorem and_two_pow_eq_zero_iff (n k : ℕ) : n &&& 2 ^ k = 0 ↔ n.testBit k = false := by
  rw [Nat.and_two_pow]
  cases n.testBit k <;> simp

/-- What both walks read at depth `d`. -/
theorem peek_bit {ip : List UInt8} {d : ℕ} (h : d / 8 < ip.length) :
    ∃ octet, peek ip (d / 8 : ℕ) = .ok octet ∧
      (octet.toNat &&& 2 ^ (7 - d % 8) = 0 ↔ bitAt ip d = false) :=
  ⟨_, peek_eq h, and_two_pow_eq_zero_iff _ _⟩

/-! ### The rules that a tree stores -/

/-- The rule of a node, if it carries one. -/
def ruleOf (n : IpNode) : Option ℤ := if n.cmd = Ift.none then none else some n.cmd

/-- The rules of a tree, by their prefixes. -/
def ipRules (t : BinTrie IpNode) : List Bool → Option ℤ := t.rules ruleOf

@[simp] theorem ipRules_node_nil (a : IpNode) (zero one : BinTrie IpNode) :
    ipRules (.node a zero one) [] = ruleOf a := rfl

/-- The search for the longest rule descends by one bit. -/
theorem longest_node (a : IpNode) (zero one : BinTrie IpNode) (b : Bool) (w : List Bool) :
    longest (ipRules (.node a zero one)) (b :: w) =
      (longest (ipRules (if b then one else zero)) w).or (ruleOf a) := by
  cases b <;> rfl

theorem longest_of_isNil {t : BinTrie IpNode} (h : t.isNil = true) (w : List Bool) :
    longest (ipRules t) w = none := by
  cases t with
  | nil => exact longest_of_forall_none (BinTrie.rules_nil ruleOf) w
  | node a zero one => cases h

theorem one_le_height {t : BinTrie IpNode} (h : t.isNil = false) : 1 ≤ t.height := by
  cases t with
  | nil => cases h
  | node a zero one => simp [BinTrie.height]

/-- Where the walk cannot go on, the node itself has the longest rule below it. -/
theorem longest_of_child_isNil {a : IpNode} {zero one : BinTrie IpNode} {ip : List UInt8}
    {d : ℕ} (h : (if bitAt ip d then one else zero).isNil = true) (n : ℕ) :
    longest (ipRules (.node a zero one)) (bitsFrom ip d n) = ruleOf a := by
  cases n with
  | zero => rfl
  | succ n =>
      rw [bitsFrom_succ, longest_node, longest_of_isNil h]
      rfl

/-- The node that the walk keeps in mind after it has seen another one. -/
theorem cmd_seen (path : List Bool) (a : IpNode) (m : List Bool × IpNode) :
    (if a.cmd ≠ Ift.none then (path, a) else m).2.cmd = (ruleOf a).getD m.2.cmd := by
  rw [ruleOf]
  split_ifs <;> simp_all

/-- One step of `ip_match`. -/
theorem ipMatchLoop_node {ip : List UInt8} {d : ℕ} {off : ℤ} {bit : ℕ}
    (hd : AtDepth d off bit) (hlen : d / 8 < ip.length) (a : IpNode)
    (zero one : BinTrie IpNode) (path : List Bool) (m : List Bool × IpNode) :
    ipMatchLoop ip (.node a zero one) path m off bit =
      if (if bitAt ip d then one else zero).isNil then
        .ok (some (if a.cmd ≠ Ift.none then (path, a) else m))
      else
        ipMatchLoop ip (if bitAt ip d then one else zero) (path ++ [bitAt ip d])
          (if a.cmd ≠ Ift.none then (path, a) else m) (d / 8 : ℕ)
          (2 ^ (7 - d % 8) >>> 1) := by
  obtain ⟨octet, hpeek, hbit⟩ := peek_bit hlen
  rw [ipMatchLoop, hd.roll_eq]
  dsimp only
  rw [hpeek, ok_bind]
  cases hb : bitAt ip d with
  | false =>
      rw [hb] at hbit
      have hzero := hbit.mpr rfl
      cases hz : zero.isNil <;> simp [hzero, hz]
  | true =>
      rw [hb] at hbit
      have hone : ¬ octet.toNat &&& 2 ^ (7 - d % 8) = 0 := fun h => by
        cases hbit.mp h
      cases ho : one.isNil <;> simp [hone, ho]

/-- A walk over `n` more bits stays inside the tree and inside the address, and ends at
the longest rule. -/
theorem ipMatchLoop_eq (ip : List UInt8) (n : ℕ) {d : ℕ} {t : BinTrie IpNode} {off : ℤ} {bit : ℕ}
    (hd : AtDepth d off bit) (hheight : t.height ≤ n + 1) (hlen : (d + n) / 8 < ip.length)
    (ht : t.isNil = false) (path : List Bool) (m : List Bool × IpNode) :
    ∃ path' n', ipMatchLoop ip t path m off bit = .ok (some (path', n')) ∧
      n'.cmd = (longest (ipRules t) (bitsFrom ip d n)).getD m.2.cmd := by
  induction n generalizing t d off bit path m with
  | zero =>
      cases t with
      | nil => cases ht
      | node a zero one =>
          have hchild : (if bitAt ip d then one else zero).isNil = true := by
            simp only [BinTrie.height] at hheight
            by_contra hne
            have := one_le_height (Bool.eq_false_iff.mpr hne)
            split_ifs at this <;> omega
          rw [ipMatchLoop_node hd (by omega), if_pos hchild]
          exact ⟨_, _, rfl, cmd_seen path a m⟩
  | succ n ih =>
      cases t with
      | nil => cases ht
      | node a zero one =>
          rw [ipMatchLoop_node hd (by omega)]
          cases hchild : (if bitAt ip d then one else zero).isNil with
          | true =>
              rw [if_pos rfl, longest_of_child_isNil hchild, ← cmd_seen path a m]
              exact ⟨_, _, rfl, rfl⟩
          | false =>
              have hheight' : (if bitAt ip d then one else zero).height ≤ n + 1 := by
                simp only [BinTrie.height] at hheight
                split_ifs <;> omega
              obtain ⟨path', n', hloop, hcmd⟩ := ih (AtDepth.next d) hheight' (by omega) hchild
                (path ++ [bitAt ip d]) (if a.cmd ≠ Ift.none then (path, a) else m)
              rw [if_neg Bool.false_ne_true]
              refine ⟨path', n', hloop, ?_⟩
              rw [hcmd, cmd_seen, bitsFrom_succ, longest_node]
              cases longest (ipRules (if bitAt ip d then one else zero))
                (bitsFrom ip (d + 1) n) <;> rfl

/-- What every tree of rules satisfies: it is not deeper than an address has bits, and its
root carries a rule. -/
structure IpTreeOk (t : BinTrie IpNode) : Prop where
  isNil : t.isNil = false
  height_le : t.height ≤ 33
  root : ipRules t [] ≠ none

theorem ipTreeOk_init : IpTreeOk IpList.init.tree :=
  ⟨rfl, by decide, by decide⟩

@[simp] theorem ipRules_modify_countHit (t : BinTrie IpNode) (path : List Bool) :
    ipRules (t.modify countHit path) = ipRules t :=
  BinTrie.rules_modify ruleOf (f := countHit) (fun _ => rfl) t path

theorem isNil_modify_countHit (t : BinTrie IpNode) (path : List Bool) :
    (t.modify countHit path).isNil = t.isNil := by
  cases t with
  | nil => rfl
  | node a zero one =>
      cases path with
      | nil => rfl
      | cons b q => cases b <;> rfl

/-- Counting a hit keeps a tree of rules. -/
theorem IpTreeOk.countHit {t : BinTrie IpNode} (h : IpTreeOk t) (path : List Bool) :
    IpTreeOk (t.modify countHit path) where
  isNil := by rw [isNil_modify_countHit]; exact h.isNil
  height_le := by rw [BinTrie.height_modify]; exact h.height_le
  root := by rw [ipRules_modify_countHit]; exact h.root

/-- The search for the longest rule always finds one, since the root has one. -/
theorem IpTreeOk.longest_ne_none {t : BinTrie IpNode} (h : IpTreeOk t) (w : List Bool) :
    longest (ipRules t) w ≠ none := fun hnone =>
  h.root (longest_eq_none_iff.mp hnone [] List.nil_prefix)

/-- **`ip_match` returns the command of the longest rule.** The walk reads up to five
octets of the buffer and decides on the first four. -/
theorem ipMatch_eq (ndebug : Bool) {t : BinTrie IpNode} (h : IpTreeOk t) {ip : List UInt8}
    (hlen : 5 ≤ ip.length) :
    ∃ v path, longest (ipRules t) (prefixBits ip 32) = some v ∧
      ipMatch ndebug t ip = .ok (v, t.modify countHit path) := by
  have hnil := h.isNil
  have hroot := h.root
  cases t with
  | nil => cases hnil
  | node root zero one =>
      obtain ⟨path, n, hloop, hcmd⟩ := ipMatchLoop_eq ip 32 atDepth_zero
        h.height_le (by omega) hnil [] ([], root)
      obtain ⟨v, hv⟩ := Option.ne_none_iff_exists'.mp (h.longest_ne_none (prefixBits ip 32))
      have hnv : n.cmd = v := by
        rw [hcmd, ← prefixBits, hv]
        rfl
      refine ⟨v, path, hv, ?_⟩
      -- the node that decides carries a rule
      have hassert : n.cmd ≠ Ift.none := by
        obtain ⟨q, -, hq, -⟩ := longest_eq_some_iff.mp hv
        obtain ⟨a, -, ha⟩ := Option.bind_eq_some_iff.mp hq
        rw [ruleOf] at ha
        split_ifs at ha with hnone
        rw [hnv, ← Option.some_inj.mp ha]
        exact hnone
      rw [ipMatch, hloop, ok_bind]
      dsimp only
      rw [cassert_of hassert, ok_bind, hnv]

/-- A tree that was searched has a root. -/
theorem isNil_of_ipMatch {ndebug : Bool} {t t' : BinTrie IpNode} {ip : List UInt8} {v : ℤ}
    (h : ipMatch ndebug t ip = .ok (v, t')) : t'.isNil = false := by
  cases t with
  | nil => cases h
  | node root zero one =>
      rw [ipMatch] at h
      obtain ⟨found, -, h⟩ := bind_eq_ok.mp h
      cases found with
      | none =>
          cases h
          rfl
      | some r =>
          obtain ⟨path, n⟩ := r
          obtain ⟨_, -, h⟩ := bind_eq_ok.mp h
          cases h
          exact isNil_modify_countHit _ path

/-! ### Adding a rule -/

/-- The rule that a command leaves behind. -/
def installed (cmd : ℤ) : Option ℤ := if cmd = Ift.remove then none else some cmd

/-- What happens on the node of the prefix. The count is right for `IFT_NONE` too, as if
that were a rule. -/
theorem ruleOf_ipInstall (cmd : ℤ) (n : IpNode) (ipcnt : ℤ) :
    (cmd ≠ Ift.none → ruleOf (ipInstall cmd n ipcnt).1 = installed cmd) ∧
      (ipInstall cmd n ipcnt).2 + ((ruleOf n).isSome.toNat : ℤ) =
        ipcnt + ((installed cmd).isSome.toNat : ℤ) := by
  unfold ipInstall ruleOf installed
  by_cases hn : n.cmd = Ift.none <;> by_cases hr : cmd = Ift.remove <;> simp [hn, hr]

@[simp] theorem isNil_childOrNew (t : BinTrie IpNode) : (childOrNew t).isNil = false := by
  rw [childOrNew]
  split_ifs with h
  · rfl
  · exact Bool.eq_false_iff.mpr h

@[simp] theorem ipRules_childOrNew (t : BinTrie IpNode) :
    ipRules (childOrNew t) = ipRules t := by
  cases t with
  | node a zero one => rfl
  | nil =>
      funext q
      rcases q with _ | ⟨b, q⟩
      · rfl
      · cases b <;> simp [childOrNew, BinTrie.isNil, ipRules]

theorem height_childOrNew (t : BinTrie IpNode) :
    (childOrNew t).height = max t.height 1 := by
  cases t with
  | node a zero one => simp [childOrNew, BinTrie.isNil, BinTrie.height]
  | nil => rfl

/-- A rule set below one child of a node. -/
theorem update_ipRules_node {a : IpNode} {zero one child : BinTrie IpNode} {b : Bool}
    {w : List Bool} {v : Option ℤ}
    (h : ipRules child = Function.update (ipRules (if b then one else zero)) w v) :
    ipRules (.node a (if b then zero else child) (if b then child else one)) =
      Function.update (ipRules (.node a zero one)) (b :: w) v := by
  funext q
  cases q with
  | nil => simp [ipRules]
  | cons c q =>
      have hq := congrFun h q
      simp only [Function.update_apply, List.cons.injEq] at hq ⊢
      obtain rfl | hne := eq_or_ne c b
      · cases c <;> simpa [ipRules] using hq
      · cases b <;> cases c <;> first | exact absurd rfl hne | simp [ipRules]

/-- One step of the walk of `ip_add_sm`. -/
theorem ipAddLoop_succ {ip : List UInt8} {d : ℕ} {off : ℤ} {bit : ℕ}
    (hd : AtDepth d off bit) (hlen : d / 8 < ip.length) (cmd : ℤ) (mask : ℕ) (a : IpNode)
    (zero one : BinTrie IpNode) (ipcnt : ℤ) :
    ipAddLoop ip cmd (mask + 1) (.node a zero one) off bit ipcnt =
      (ipAddLoop ip cmd mask (childOrNew (if bitAt ip d then one else zero)) (d / 8 : ℕ)
        (2 ^ (7 - d % 8) >>> 1) ipcnt >>= fun r =>
          .ok (.node a (if bitAt ip d then zero else r.1) (if bitAt ip d then r.1 else one),
            r.2)) := by
  obtain ⟨octet, hpeek, hbit⟩ := peek_bit hlen
  rw [ipAddLoop, hd.roll_eq]
  dsimp only
  rw [hpeek, ok_bind]
  cases hb : bitAt ip d with
  | false =>
      rw [if_pos (hbit.mpr hb)]
      rfl
  | true =>
      have hone : ¬ octet.toNat &&& 2 ^ (7 - d % 8) = 0 := fun h => by
        rw [hbit.mp h] at hb
        cases hb
      rw [if_neg hone]
      rfl

/-- The walk of `ip_add_sm` sets or removes one rule. -/
theorem ipAddLoop_eq (ip : List UInt8) (cmd : ℤ) (mask : ℕ) {d : ℕ}
    {t : BinTrie IpNode} {off : ℤ} {bit : ℕ} (hd : AtDepth d off bit)
    (hlen : ∀ k < mask, (d + k) / 8 < ip.length) (ht : t.isNil = false) (ipcnt : ℤ) :
    ∃ t' ipcnt', ipAddLoop ip cmd mask t off bit ipcnt = .ok (t', ipcnt') ∧
      t'.isNil = false ∧ t'.height ≤ max t.height (mask + 1) ∧
      (cmd ≠ Ift.none →
        ipRules t' = Function.update (ipRules t) (bitsFrom ip d mask) (installed cmd)) ∧
      ipcnt' + ((ipRules t (bitsFrom ip d mask)).isSome.toNat : ℤ) =
        ipcnt + ((installed cmd).isSome.toNat : ℤ) := by
  induction mask generalizing t d off bit ipcnt with
  | zero =>
      cases t with
      | nil => cases ht
      | node a zero one =>
          obtain ⟨hrule, hcnt⟩ := ruleOf_ipInstall cmd a ipcnt
          refine ⟨_, _, rfl, rfl, by simp [BinTrie.height], fun hcmd => ?_, hcnt⟩
          funext q
          rcases q with _ | ⟨b, q⟩
          · simpa [ipRules] using hrule hcmd
          · cases b <;> simp [ipRules]
  | succ mask ih =>
      cases t with
      | nil => cases ht
      | node a zero one =>
          obtain ⟨t', ipcnt', hloop, hnil, hheight, hrules, hcnt⟩ :=
            ih (t := childOrNew (if bitAt ip d then one else zero)) (AtDepth.next d)
              (fun k hk => by
                have := hlen (k + 1) (by omega)
                rwa [← Nat.add_assoc, Nat.add_right_comm] at this)
              (isNil_childOrNew _) ipcnt
          rw [ipRules_childOrNew] at hrules hcnt
          rw [height_childOrNew] at hheight
          rw [ipAddLoop_succ hd (by simpa using hlen 0 (by omega)), hloop, ok_bind]
          refine ⟨_, _, rfl, rfl, ?_, ?_, ?_⟩
          · simp only [BinTrie.height]
            cases hb : bitAt ip d <;> simp only [hb, Bool.false_eq_true, if_true, if_false]
              at hheight ⊢ <;> omega
          · intro hcmd
            rw [bitsFrom_succ]
            exact update_ipRules_node (hrules hcmd)
          · rw [bitsFrom_succ]
            cases hb : bitAt ip d <;> rw [hb] at hcnt <;> exact hcnt

/-- **What the walk does at a node**: it installs the rule there, or goes on in a child. -/
theorem ipAddLoop_inv {ip : List UInt8} {cmd : ℤ} {mask : ℕ} {t : BinTrie IpNode}
    {off : ℤ} {bit : ℕ} {ipcnt : ℤ} {r : BinTrie IpNode × ℤ}
    (h : ipAddLoop ip cmd mask t off bit ipcnt = .ok r) :
    ∃ a zero one, t = .node a zero one ∧
      ((mask = 0 ∧ r.1 = .node (ipInstall cmd a ipcnt).1 zero one) ∨
        ∃ n off' bit' child, mask = n + 1 ∧
          ((ipAddLoop ip cmd n (childOrNew zero) off' bit' ipcnt = .ok (child, r.2) ∧
              r.1 = .node a child one) ∨
            (ipAddLoop ip cmd n (childOrNew one) off' bit' ipcnt = .ok (child, r.2) ∧
              r.1 = .node a zero child))) := by
  cases t with
  | nil =>
      rw [ipAddLoop] at h
      cases h
  | node a zero one =>
      refine ⟨a, zero, one, rfl, ?_⟩
      cases mask with
      | zero =>
          cases h
          exact Or.inl ⟨rfl, rfl⟩
      | succ n =>
          rw [ipAddLoop] at h
          dsimp only at h
          obtain ⟨octet, -, h⟩ := bind_eq_ok.mp h
          split_ifs at h
          · obtain ⟨⟨zero', ipcnt'⟩, hloop, h⟩ := bind_eq_ok.mp h
            cases h
            exact Or.inr ⟨n, _, _, zero', rfl, Or.inl ⟨hloop, rfl⟩⟩
          · obtain ⟨⟨one', ipcnt'⟩, hloop, h⟩ := bind_eq_ok.mp h
            cases h
            exact Or.inr ⟨n, _, _, one', rfl, Or.inr ⟨hloop, rfl⟩⟩

/-- A tree that was walked through has a root. -/
theorem isNil_of_ipAddLoop {ip : List UInt8} {cmd : ℤ} {mask : ℕ} {t : BinTrie IpNode}
    {off : ℤ} {bit : ℕ} {ipcnt : ℤ} {r : BinTrie IpNode × ℤ}
    (h : ipAddLoop ip cmd mask t off bit ipcnt = .ok r) : r.1.isNil = false := by
  obtain ⟨a, zero, one, -, ⟨-, hr⟩ | ⟨n, off', bit', child, -, ⟨-, hr⟩ | ⟨-, hr⟩⟩⟩ :=
    ipAddLoop_inv h
  · rw [hr]
    rfl
  · rw [hr]
    rfl
  · rw [hr]
    rfl

theorem bitAt_take {ip : List UInt8} {n d : ℕ} (h : d / 8 < n) :
    bitAt (ip.take n) d = bitAt ip d := by
  simp only [bitAt, List.getD_eq_getElem?_getD, List.getElem?_take_of_lt h]

/-- The walk of `ip_add_sm` looks at no more octets than it has bits for. -/
theorem ipAddLoop_take {ip : List UInt8} {n : ℕ} (hn : n ≤ ip.length) (cmd : ℤ) (mask : ℕ)
    {d : ℕ} {t : BinTrie IpNode} {off : ℤ} {bit : ℕ} (hd : AtDepth d off bit)
    (hmask : ∀ k < mask, (d + k) / 8 < n) (ipcnt : ℤ) :
    ipAddLoop (ip.take n) cmd mask t off bit ipcnt = ipAddLoop ip cmd mask t off bit ipcnt := by
  induction mask generalizing t d off bit ipcnt with
  | zero => cases t <;> rfl
  | succ mask ih =>
      cases t with
      | nil => rw [ipAddLoop, ipAddLoop]
      | node a zero one =>
          have hlt : d / 8 < n := hmask 0 (by omega)
          have hlen : d / 8 < (ip.take n).length := by
            rw [List.length_take]
            omega
          have hrest : ∀ k < mask, (d + 1 + k) / 8 < n := fun k hk => by
            have := hmask (k + 1) (by omega)
            rwa [← Nat.add_assoc, Nat.add_right_comm] at this
          rw [ipAddLoop_succ hd hlen, ipAddLoop_succ hd (by omega), bitAt_take hlt,
            ih (AtDepth.next d) hrest]

/-- A walk over more bits than the address has leaves it. -/
theorem ipAddLoop_of_length_lt {ip : List UInt8} (cmd : ℤ) (mask : ℕ) {d : ℕ}
    {t : BinTrie IpNode} {off : ℤ} {bit : ℕ} (hd : AtDepth d off bit)
    (hmask : 8 * ip.length < d + mask) (hdepth : d ≤ 8 * ip.length) (ipcnt : ℤ) :
    ipAddLoop ip cmd mask t off bit ipcnt = .error .memory := by
  induction mask generalizing t d off bit ipcnt with
  | zero => omega
  | succ mask ih =>
      cases t with
      | nil => rw [ipAddLoop]
      | node a zero one =>
          by_cases hlen : d / 8 < ip.length
          · rw [ipAddLoop_succ hd hlen, ih (AtDepth.next d) (by omega) (by omega), error_bind]
          · have hpeek : peek ip (d / 8 : ℕ) = .error .memory := by
              rw [peek, if_pos (Int.natCast_nonneg _), Int.toNat_natCast,
                List.getElem?_eq_none (by omega)]
            rw [ipAddLoop, hd.roll_eq]
            dsimp only
            rw [hpeek, error_bind]

/-- **What `ip_add_sm` does to the tree**: with an empty mask it sets the command of the root,
or leaves it, and otherwise it walks. -/
theorem ipAddSm_inv {ndebug : Bool} {l l' : IpList} {ip : List UInt8} {mask cmd : ℤ}
    (h : ipAddSm ndebug l ip mask cmd = .ok l') :
    (∃ n zero one, l.tree = .node n zero one ∧
        (l'.tree = .node { n with cmd := cmd } zero one ∨ l'.tree = .node n zero one)) ∨
      ipAddLoop ip cmd mask.toNat l.tree (-1) 0 l.ipcnt = .ok (l'.tree, l'.ipcnt) := by
  rw [ipAddSm] at h
  obtain ⟨_, -, h⟩ := bind_eq_ok.mp h
  obtain ⟨_, -, h⟩ := bind_eq_ok.mp h
  by_cases hzero : mask = 0
  · rw [if_pos hzero] at h
    obtain ⟨tree, ipcnt⟩ := l
    cases tree with
    | nil => cases h
    | node n zero one =>
        cases h
        refine Or.inl ⟨n, zero, one, rfl, ?_⟩
        split_ifs
        · exact Or.inl rfl
        · exact Or.inr rfl
  · rw [if_neg hzero] at h
    by_cases hneg : mask < 0
    · rw [if_pos hneg] at h
      cases h
    · rw [if_neg hneg] at h
      obtain ⟨⟨tree, ipcnt⟩, hloop, h⟩ := bind_eq_ok.mp h
      cases h
      exact Or.inr hloop

/-- A tree that a rule was added to has a root. -/
theorem isNil_of_ipAddSm {ndebug : Bool} {l l' : IpList} {ip : List UInt8} {mask cmd : ℤ}
    (h : ipAddSm ndebug l ip mask cmd = .ok l') : l'.tree.isNil = false := by
  rcases ipAddSm_inv h with ⟨n, zero, one, -, htree | htree⟩ | hloop
  · rw [htree]
    rfl
  · rw [htree]
    rfl
  · exact isNil_of_ipAddLoop hloop

/-- **`ip_add_sm` looks at no more octets** than the mask has bits for. -/
theorem ipAddSm_take (ndebug : Bool) (l : IpList) {ip : List UInt8} {n : ℕ}
    (hn : n ≤ ip.length) {mask : ℤ} (hmask : mask ≤ 8 * n) (cmd : ℤ) :
    ipAddSm ndebug l (ip.take n) mask cmd = ipAddSm ndebug l ip mask cmd := by
  rw [ipAddSm, ipAddSm, ipAddLoop_take hn cmd mask.toNat atDepth_zero (fun k hk => by omega)]

end XGrey
