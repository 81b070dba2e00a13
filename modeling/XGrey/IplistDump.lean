import XGrey.Formats
import XGrey.IpRules
import XGrey.RuleFiles
import XGrey.Lib.TextFile
import XGrey.Tuple

/-!
# Saving the Address Rules

`ip_table`, `ip_collect` and `iplist_dump_stream` of `server/iplist.c`. The walk over the
tree builds up the address and the mask of a node bit by bit, in two buffers that it
restores on its way back, and stores a block for each node that carries a rule in an array
with room for as many as `g_ipcnt` counts. The blocks are written as a file in the format
that `iplist_read` reads.

## Main results

* `ipCollect_eq`: the walk stores the rules below a node and leaves its buffers alone.
* `run_iplist_reload`: rules that were saved are read back, and so is their number.
-/

open CRuntime PrefixMap StepRun TextFile

namespace XGrey

/-! ### The table -/

/-- `struct ipblock` -/
structure IpBlock where
  size : ℕ
  addr : Vector UInt8 16
  mask : Vector UInt8 16
  smask : ℕ
  count : ℕ
  cmd : ℤ
  deriving DecidableEq

/-- `array[i++] = block`, in an array of `cap` elements of which the first are filled. -/
def storeBlock (cap : ℤ) (array : List IpBlock) (block : IpBlock) : Exec (List IpBlock) :=
  if (array.length : ℤ) < cap then .ok (array ++ [block]) else .error .memory

/-- `buf[off] |= bit` -/
def setBit (buf : List UInt8) (off : ℕ) (bit : UInt8) : Exec (List UInt8) := do
  let octet ← peek buf off
  .ok (buf.set off (octet ||| bit))

/-- `buf[off] ^= bit` -/
def flipBit (buf : List UInt8) (off : ℕ) (bit : UInt8) : Exec (List UInt8) := do
  let octet ← peek buf off
  .ok (buf.set off (octet ^^^ bit))

/-- The bits of an octet, as constants. -/
def octetBits : List UInt8 := [0x80, 0x40, 0x20, 0x10, 0x08, 0x04, 0x02, 0x01]

/-- The place of the next bit. -/
def nextBit (off : ℕ) (mbit : UInt8) : ℕ × UInt8 :=
  if mbit >>> 1 = 0 then (off + 1, 0x80) else (off, mbit >>> 1)

/-- `if (p->zero) ...` and its like. -/
def ifNode {α : Type} (t : BinTrie IpNode) (x : α) (r : Exec α) : Exec α :=
  if t.isNil then .ok x else r

/-- The block that `ip_collect` stores for the node that it is at. -/
def collectNode (cap : ℤ) (n : IpNode) (ip mask : List UInt8) (off : ℕ)
    (array : List IpBlock) : Exec (List IpBlock) :=
  if n.cmd ≠ Ift.none then do
    let octet ← peek mask off
    storeBlock cap array
      { size := 4, addr := buffer 16 (ip.take 4), mask := buffer 16 (mask.take 4)
        smask := off * 8 + octetBits.countP fun b => octet &&& b ≠ 0
        count := n.count, cmd := n.cmd }
  else .ok array

/-- `ip_collect`, on an array with room for `cap` blocks. -/
def ipCollect (ndebug : Bool) (cap : ℤ) :
    BinTrie IpNode → List UInt8 → List UInt8 → ℕ → UInt8 → UInt8 → List IpBlock →
      Exec (List UInt8 × List UInt8 × List IpBlock)
  | .nil, _, _, _, _, _, _ => .error .memory
  | .node n zero one, ip, mask, off, mbit, bit, array => do
      cassert ndebug (off < 4)
      cassert ndebug (bit = 0 ∨ bit ∈ octetBits)
      cassert ndebug (mbit ∈ octetBits)
      let mask ← setBit mask off mbit
      let ip ← setBit ip off bit
      let (noff, nmb) := nextBit off mbit
      let (ip, mask, array) ← ifNode zero (ip, mask, array)
        (ipCollect ndebug cap zero ip mask noff nmb 0 array)
      let (ip, mask, array) ← ifNode one (ip, mask, array)
        (ipCollect ndebug cap one ip mask noff nmb nmb array)
      let array ← collectNode cap n ip mask off array
      let mask ← flipBit mask off mbit
      let ip ← flipBit ip off bit
      .ok (ip, mask, array)

/-- `ip_table`: the block for the default, and then those of the rules. -/
def ipTable (ndebug : Bool) (l : IpList) : Exec (List IpBlock) :=
  match l.tree with
  | .nil => .error .memory
  | .node root zero one => do
      let array ← storeBlock l.ipcnt []
        { size := 4, addr := buffer 16 [], mask := buffer 16 [], smask := 0
          count := root.count, cmd := root.cmd }
      let blank := List.replicate 16 0
      let (_, _, array) ← ifNode zero (blank, blank, array)
        (ipCollect ndebug l.ipcnt zero blank blank 0 0x80 0 array)
      let (_, _, array) ← ifNode one (blank, blank, array)
        (ipCollect ndebug l.ipcnt one blank blank 0 0x80 0x80 array)
      .ok array

/-! ### Writing -/

/-- The line for a block, without its newline. -/
def ipDumpLine (b : IpBlock) : List UInt8 :=
  padded 18 18 (ipv4 b.addr ++ 47 :: decimal b.smask) ++ 32 :: ciMapChars b.cmd cIft

/-- `iplist_dump_stream` -/
def iplistDumpStream (ndebug : Bool) (l : IpList) : Exec (List UInt8) := do
  let array ← ipTable ndebug l
  .ok (array.flatMap fun b => ipDumpLine b ++ [10])

/-! ### The bits of the buffers -/

/-- The one bit of an octet that belongs to bit `d` of an address, or none. -/
def bitOf (d : ℕ) (b : Bool) : UInt8 := if b then UInt8.ofNat (2 ^ (7 - d % 8)) else 0

theorem bitOf_false (d : ℕ) : bitOf d false = 0 := rfl

theorem testBit_bitOf (d : ℕ) (b : Bool) (k : ℕ) :
    (bitOf d b).toNat.testBit k = (b && decide (7 - d % 8 = k)) := by
  rw [bitOf]
  cases b with
  | false => simp
  | true =>
      have hlt : 2 ^ (7 - d % 8) < 2 ^ 8 := Nat.pow_lt_pow_right (by omega) (by omega)
      rw [if_pos rfl, UInt8.toNat_ofNat', Nat.mod_eq_of_lt hlt, Nat.testBit_two_pow]
      rfl

/-- A buffer of 16 bytes that holds some bits and then zeros. -/
structure HoldsBits (buf : List UInt8) (q : List Bool) : Prop where
  length : buf.length = 16
  bitAt : ∀ j < 128, bitAt buf j = q.getD j false

/-- The bits of a buffer with another octet. -/
theorem bitAt_set {buf : List UInt8} {off : ℕ} (h : off < buf.length) (x : UInt8) (j : ℕ) :
    bitAt (buf.set off x) j = if j / 8 = off then x.toNat.testBit (7 - j % 8) else bitAt buf j := by
  rw [bitAt]
  by_cases hj : j / 8 = off
  · rw [if_pos hj, hj]
    simp [h]
  · rw [if_neg hj, bitAt]
    simp [Ne.symm hj]

variable {buf : List UInt8} {q : List Bool}

/-- The octet with the first bit behind those of a buffer. -/
theorem HoldsBits.peek_eq (h : HoldsBits buf q) (hq : q.length < 128) :
    peek buf (q.length / 8 : ℕ) = .ok (buf.getD (q.length / 8) 0) :=
  CRuntime.peek_eq (by rw [h.length]; omega)

theorem getD_concat (q : List Bool) (b : Bool) (j : ℕ) :
    (q ++ [b]).getD j false = if j = q.length then b else q.getD j false := by
  by_cases hj : j = q.length
  · rw [if_pos hj, hj]
    simp
  · rw [if_neg hj, List.getD_eq_getElem?_getD, List.getD_eq_getElem?_getD]
    by_cases hlt : j < q.length
    · rw [List.getElem?_append_left hlt]
    · rw [List.getElem?_eq_none (by simp; omega), List.getElem?_eq_none (by omega)]

/-- Flipping a bit that was set. -/
theorem or_xor_bitOf {x : UInt8} {d : ℕ} (h : x.toNat.testBit (7 - d % 8) = false) (b : Bool) :
    (x ||| bitOf d b) ^^^ bitOf d b = x := by
  refine UInt8.toNat_inj.mp (Nat.eq_of_testBit_eq fun k => ?_)
  rw [UInt8.toNat_xor, UInt8.toNat_or, Nat.testBit_xor, Nat.testBit_or, testBit_bitOf]
  by_cases hk : 7 - d % 8 = k
  · rw [← hk, h]
    cases b <;> simp
  · rw [decide_eq_false hk]
    simp

/-- **Setting the next bit**, and flipping it again. -/
theorem HoldsBits.setBit (h : HoldsBits buf q) (hq : q.length < 128) (b : Bool) :
    ∃ buf', XGrey.setBit buf (q.length / 8) (bitOf q.length b) = .ok buf' ∧
      HoldsBits buf' (q ++ [b]) ∧
      flipBit buf' (q.length / 8) (bitOf q.length b) = .ok buf := by
  have hoff : q.length / 8 < buf.length := by rw [h.length]; omega
  obtain ⟨x, hx⟩ : ∃ x, buf.getD (q.length / 8) 0 = x := ⟨_, rfl⟩
  have hbit : x.toNat.testBit (7 - q.length % 8) = false := by
    have hnext := h.bitAt q.length hq
    rw [XGrey.bitAt, hx] at hnext
    rw [hnext]
    simp
  refine ⟨buf.set (q.length / 8) (x ||| bitOf q.length b), ?_, ⟨?_, ?_⟩, ?_⟩
  · rw [XGrey.setBit, h.peek_eq hq, hx, ok_bind]
  · rw [List.length_set, h.length]
  · intro j hj
    have hold := h.bitAt j hj
    rw [bitAt_set hoff, UInt8.toNat_or, Nat.testBit_or, testBit_bitOf, getD_concat]
    by_cases hsame : j / 8 = q.length / 8
    · rw [XGrey.bitAt, hsame, hx] at hold
      rw [if_pos hsame, hold]
      by_cases hj : j = q.length
      · rw [if_pos hj, hj]
        simp
      · rw [if_neg hj, decide_eq_false (by omega), Bool.and_false, Bool.or_false]
    · have hj : j ≠ q.length := by
        rintro rfl
        exact hsame rfl
      rw [if_neg hsame, if_neg hj, hold]
  · have hlen : q.length / 8 < (buf.set (q.length / 8) (x ||| bitOf q.length b)).length := by
      rwa [List.length_set]
    have hget : (buf.set (q.length / 8) (x ||| bitOf q.length b)).getD (q.length / 8) 0 =
        x ||| bitOf q.length b := by
      simp [hoff]
    rw [flipBit, CRuntime.peek_eq hlen, ok_bind]
    change Except.ok (List.set _ _ (List.getD _ _ 0 ^^^ _)) = _
    rw [hget, or_xor_bitOf hbit, List.set_set, ← hx]
    simp [hoff]

/-- The place of the bit behind bit `d`. -/
theorem nextBit_bitOf (d : ℕ) :
    nextBit (d / 8) (bitOf d true) = ((d + 1) / 8, bitOf (d + 1) true) := by
  have hshift : ∀ r < 7, UInt8.ofNat (2 ^ (7 - r)) >>> 1 = UInt8.ofNat (2 ^ (7 - (r + 1))) ∧
      UInt8.ofNat (2 ^ (7 - r)) >>> 1 ≠ 0 := by decide
  rw [nextBit, bitOf, bitOf, if_pos rfl, if_pos rfl]
  by_cases h : d % 8 = 7
  · have hdiv : (d + 1) / 8 = d / 8 + 1 := by omega
    have hmod : (d + 1) % 8 = 0 := by omega
    rw [h, hmod, hdiv]
    rfl
  · have hdiv : (d + 1) / 8 = d / 8 := by omega
    have hmod : (d + 1) % 8 = d % 8 + 1 := by omega
    obtain ⟨hnext, hne⟩ := hshift (d % 8) (by omega)
    rw [if_neg hne, hnext, hmod, hdiv]

/-- The constants are the bits of an octet. -/
theorem octetBits_eq : octetBits = (List.range 8).map fun k => bitOf k true := by decide

theorem bitOf_mem (d : ℕ) : bitOf d true ∈ octetBits := by
  rw [octetBits_eq, List.mem_map]
  refine ⟨d % 8, List.mem_range.mpr (Nat.mod_lt d (by omega)), ?_⟩
  rw [bitOf, bitOf, Nat.mod_mod]

/-- The test of one bit of an octet. -/
theorem and_bitOf_eq_zero_iff (x : UInt8) {k : ℕ} (hk : k < 8) :
    x &&& bitOf k true = 0 ↔ x.toNat.testBit (7 - k) = false := by
  have hlt : 2 ^ (7 - k) < 2 ^ 8 := Nat.pow_lt_pow_right (by omega) (by omega)
  rw [← and_two_pow_eq_zero_iff, ← UInt8.toNat_inj, UInt8.toNat_and, bitOf, if_pos rfl,
    Nat.mod_eq_of_lt hk, UInt8.toNat_ofNat', Nat.mod_eq_of_lt hlt]
  rfl

/-- **The prefix length** is read off the octet of the mask with its last bit. -/
theorem countP_octetBits {mask : List UInt8} {d : ℕ} (hd : d < 128)
    (h : HoldsBits mask (List.replicate (d + 1) true)) :
    d / 8 * 8 + octetBits.countP (fun b => mask.getD (d / 8) 0 &&& b ≠ 0) = d + 1 := by
  have hcount : ∀ r < 8, (List.range 8).countP (fun k => decide (k ≤ r)) = r + 1 := by decide
  have hbits : ∀ k ∈ List.range 8, (mask.getD (d / 8) 0 &&& bitOf k true ≠ 0 ↔ k ≤ d % 8) := by
    intro k hk
    have hk := List.mem_range.mp hk
    have hbit := h.bitAt (d / 8 * 8 + k) (by omega)
    have hdiv : (d / 8 * 8 + k) / 8 = d / 8 := by omega
    have hmod : (d / 8 * 8 + k) % 8 = k := by omega
    have hget : (List.replicate (d + 1) true).getD (d / 8 * 8 + k) false =
        decide (k ≤ d % 8) := by
      rw [List.getD_eq_getElem?_getD, List.getElem?_replicate]
      by_cases hle : k ≤ d % 8
      · rw [if_pos (by omega), decide_eq_true hle]
        rfl
      · rw [if_neg (by omega), decide_eq_false hle]
        rfl
    rw [bitAt, hdiv, hmod, hget] at hbit
    rw [ne_eq, and_bitOf_eq_zero_iff _ hk, hbit, Bool.not_eq_false, decide_eq_true_eq]
  have hcongr : octetBits.countP (fun b => mask.getD (d / 8) 0 &&& b ≠ 0) =
      (List.range 8).countP fun k => decide (k ≤ d % 8) := by
    rw [octetBits_eq, List.countP_map]
    exact List.countP_congr fun k hk => by simpa using hbits k hk
  rw [hcongr, hcount (d % 8) (Nat.mod_lt d (by omega))]
  omega

/-- What a buffer holds are its first bits. -/
theorem HoldsBits.prefixBits_eq (h : HoldsBits buf q) (hq : q.length ≤ 128) :
    prefixBits buf q.length = q := by
  refine List.ext_getElem (by simp [prefixBits, bitsFrom]) fun j hj hj' => ?_
  rw [show (prefixBits buf q.length)[j] = XGrey.bitAt buf j by simp [prefixBits, bitsFrom],
    h.bitAt j (by omega)]
  simp [hj']

/-- The first four bytes of a buffer that holds no more bits than they have. -/
theorem HoldsBits.take (h : HoldsBits buf q) (hq : q.length ≤ 32) :
    HoldsBits (buffer 16 (buf.take 4)).toList q := by
  have hlen := h.length
  refine ⟨by simp, fun j hj => ?_⟩
  rw [← h.bitAt j hj, XGrey.bitAt, XGrey.bitAt, toList_buffer, List.getD_eq_getElem?_getD,
    List.take_take]
  by_cases hj4 : j / 8 < 4
  · rw [List.getElem?_append_left (by simp; omega), List.getElem?_take_of_lt (by simpa using hj4),
      ← List.getD_eq_getElem?_getD]
  · -- behind them there are zeros in both buffers
    have hzero := h.bitAt j hj
    rw [List.getD_eq_default _ _ (show q.length ≤ j by omega), XGrey.bitAt] at hzero
    rw [hzero, List.getElem?_append_right (by simp; omega), List.getElem?_replicate]
    split_ifs <;> simp

/-- The address of a block is that of the buffer. -/
theorem HoldsBits.prefixBits_take (h : HoldsBits buf q) (hq : q.length ≤ 32) :
    prefixBits (buffer 16 (buf.take 4)).toList q.length = q :=
  (h.take hq).prefixBits_eq (by omega)

/-! ### The walk -/

/-- The block for a node with a path. -/
structure BlockOf (e : List Bool × IpNode) (b : IpBlock) : Prop where
  smask : b.smask = e.1.length
  addr : prefixBits b.addr.toList b.smask = e.1
  cmd : b.cmd = e.2.cmd
  count : b.count = e.2.count
  size : b.size = 4
  /-- Behind the prefix the address is zero. -/
  holdsAddr : HoldsBits b.addr.toList e.1
  /-- The mask has ones for the prefix and then zeros. -/
  holdsMask : HoldsBits b.mask.toList (List.replicate e.1.length true)

theorem isSome_ruleOf (n : IpNode) : (ruleOf n).isSome = decide (n.cmd ≠ Ift.none) := by
  rw [ruleOf]
  by_cases h : n.cmd = Ift.none
  · rw [if_pos h, decide_eq_false (not_not.mpr h)]
    rfl
  · rw [if_neg h, decide_eq_true h]
    rfl

/-- The walk below a node, from a node with a path that ends in a bit, stores the blocks of
the rules there and leaves its two buffers as they were. -/
def Collects (ndebug : Bool) (cap : ℤ) (t : BinTrie IpNode) : Prop :=
  ∀ (q : List Bool) (b : Bool) (ip mask : List UInt8) (array : List IpBlock),
    q.length + t.height ≤ 32 → HoldsBits ip q →
    HoldsBits mask (List.replicate q.length true) →
    ((array.length + t.size ruleOf : ℕ) : ℤ) ≤ cap →
    ∃ blocks,
      ifNode t (ip, mask, array) (ipCollect ndebug cap t ip mask (q.length / 8)
          (bitOf q.length true) (bitOf q.length b) array) =
        .ok (ip, mask, array ++ blocks) ∧
        List.Forall₂ BlockOf (t.entries ruleOf (q ++ [b])) blocks

/-- The end of the walk at a node: its own block. -/
theorem collectNode_eq {cap : ℤ} {q : List Bool} (hq : q ≠ []) (hlen : q.length ≤ 32)
    {ip mask : List UInt8} (hip : HoldsBits ip q)
    (hmask : HoldsBits mask (List.replicate q.length true)) (n : IpNode)
    {array : List IpBlock} (hcap : ((array.length + (ruleOf n).isSome.toNat : ℕ) : ℤ) ≤ cap) :
    ∃ blocks, collectNode cap n ip mask ((q.length - 1) / 8) array = .ok (array ++ blocks) ∧
      List.Forall₂ BlockOf (if (ruleOf n).isSome then [(q, n)] else []) blocks := by
  have hpos := List.length_pos_iff.mpr hq
  rw [isSome_ruleOf] at hcap ⊢
  rw [collectNode]
  by_cases hcmd : n.cmd = Ift.none
  · rw [if_neg (not_not.mpr hcmd), decide_eq_false (not_not.mpr hcmd)]
    exact ⟨[], by rw [List.append_nil], List.Forall₂.nil⟩
  · rw [decide_eq_true hcmd] at hcap ⊢
    have hsmask := @countP_octetBits mask (q.length - 1) (by omega)
      (by rwa [Nat.sub_add_cancel hpos])
    rw [Nat.sub_add_cancel hpos] at hsmask
    have hoff : (q.length - 1) / 8 < mask.length := by rw [hmask.length]; omega
    have hroom : (array.length : ℤ) < cap := by
      simp only [Bool.toNat_true] at hcap
      omega
    rw [if_pos hcmd, CRuntime.peek_eq hoff, ok_bind, storeBlock, if_pos hroom, if_pos rfl]
    refine ⟨_, rfl, List.Forall₂.cons ⟨hsmask, ?_, rfl, rfl, rfl, hip.take hlen, ?_⟩
      List.Forall₂.nil⟩
    · dsimp only
      exact hsmask.symm ▸ hip.prefixBits_take hlen
    · exact hmask.take (by rwa [List.length_replicate])

/-- **The walk** at a node. -/
theorem collects_node {ndebug : Bool} {cap : ℤ} {n : IpNode} {zero one : BinTrie IpNode}
    (hzero : Collects ndebug cap zero) (hone : Collects ndebug cap one) :
    Collects ndebug cap (.node n zero one) := by
  intro q b ip mask array hheight hip hmask hcap
  rw [BinTrie.height] at hheight
  rw [BinTrie.size] at hcap
  have hq : q.length < 128 := by omega
  have hlen : (q ++ [b]).length = q.length + 1 := by simp
  obtain ⟨ip', hsetIp, hip', hflipIp⟩ := hip.setBit hq b
  obtain ⟨mask', hsetMask, hmask', hflipMask⟩ :=
    hmask.setBit (by rwa [List.length_replicate]) true
  rw [← List.replicate_succ'] at hmask'
  rw [List.length_replicate] at hsetMask hflipMask
  rw [← hlen] at hmask'
  obtain ⟨zeros, hzeros, hzeroBlocks⟩ := hzero (q ++ [b]) false ip' mask' array (by omega) hip'
    hmask' (by omega)
  have hcount := hzeroBlocks.length_eq
  rw [BinTrie.length_entries] at hcount
  obtain ⟨ones, hones, honeBlocks⟩ := hone (q ++ [b]) true ip' mask' (array ++ zeros)
    (by omega) hip' hmask' (by rw [List.length_append]; omega)
  have hcount' := honeBlocks.length_eq
  rw [BinTrie.length_entries] at hcount'
  obtain ⟨self, hself, hselfBlock⟩ := @collectNode_eq cap (q ++ [b]) (by simp)
    (by omega) ip' mask' hip' hmask' n (array ++ zeros ++ ones)
    (by rw [List.length_append, List.length_append]; omega)
  rw [hlen, Nat.add_sub_cancel] at hself
  rw [hlen, bitOf_false] at hzeros
  rw [hlen] at hones
  refine ⟨zeros ++ (ones ++ self), ?_, ?_⟩
  · have hbit : bitOf q.length b = 0 ∨ bitOf q.length b ∈ octetBits := by
      cases b with
      | false => exact Or.inl rfl
      | true => exact Or.inr (bitOf_mem _)
    rw [ifNode, BinTrie.isNil, if_neg Bool.false_ne_true, ipCollect, cassert_of (by omega), ok_bind,
      cassert_of hbit, ok_bind, cassert_of (bitOf_mem _), ok_bind, hsetMask, ok_bind, hsetIp,
      ok_bind, nextBit_bitOf]
    dsimp only
    rw [hzeros, ok_bind]
    dsimp only
    rw [hones, ok_bind]
    dsimp only
    rw [hself, ok_bind, hflipMask, ok_bind, hflipIp, ok_bind, List.append_assoc,
      List.append_assoc]
  · exact List.rel_append hzeroBlocks (List.rel_append honeBlocks hselfBlock)

/-- **The walk** stores a block for each rule below a node. -/
theorem ipCollect_eq (ndebug : Bool) (cap : ℤ) (t : BinTrie IpNode) :
    Collects ndebug cap t := by
  induction t with
  | nil =>
      intro q b ip mask array _ _ _ _
      exact ⟨[], by rw [List.append_nil]; rfl, List.Forall₂.nil⟩
  | node n zero one ihz iho => exact collects_node ihz iho

/-! ### The rules of a tree -/

/-- The nodes of a tree that carry a rule, in the order of the table. -/
def ipEntries : BinTrie IpNode → List (List Bool × IpNode)
  | .nil => []
  | .node root zero one =>
      ([], root) :: (zero.entries ruleOf [false] ++ one.entries ruleOf [true])

/-- Every rule of the tree is in the table, and nothing else. -/
theorem mem_ipEntries {t : BinTrie IpNode} (h : IpTreeOk t) {q : List Bool} {n : IpNode} :
    (q, n) ∈ ipEntries t ↔ t.get? q = some n ∧ (ruleOf n).isSome := by
  cases t with
  | nil => cases h.isNil
  | node root zero one =>
      have hroot : (ruleOf root).isSome := Option.isSome_iff_ne_none.mpr h.root
      rw [ipEntries, List.mem_cons, List.mem_append, BinTrie.mem_entries, BinTrie.mem_entries]
      constructor
      · rintro (hq | ⟨q', rfl, hget, hn⟩ | ⟨q', rfl, hget, hn⟩)
        · cases hq
          exact ⟨rfl, hroot⟩
        · exact ⟨hget, hn⟩
        · exact ⟨hget, hn⟩
      · rintro ⟨hget, hn⟩
        rcases q with _ | ⟨b, q⟩
        · cases hget
          exact Or.inl rfl
        · cases b with
          | false => exact Or.inr (Or.inl ⟨q, rfl, hget, hn⟩)
          | true => exact Or.inr (Or.inr ⟨q, rfl, hget, hn⟩)

/-- A list of rules as `ip_add_sm` keeps it: `g_ipcnt` is their number, and their commands
have names. -/
structure IpKept (l : IpList) : Prop where
  ok : IpTreeOk l.tree
  ipcnt : l.ipcnt = l.tree.size ruleOf
  cmd : ∀ q v, ipRules l.tree q = some v → Named v ∧ v ≠ Ift.remove

theorem ipKept_init : IpKept IpList.init := by
  refine ⟨ipTreeOk_init, rfl, fun q v hv => ?_⟩
  rw [ipRules_init, initRules] at hv
  by_cases hq : q = []
  · rw [hq, Function.update_self] at hv
    cases hv
    exact ⟨Or.inl rfl, by decide⟩
  · rw [Function.update_of_ne hq] at hv
    cases hv

/-- **`ip_add_sm`** keeps such a list. -/
theorem IpKept.add {l : IpList} (h : IpKept l) (ndebug : Bool) {ip : List UInt8}
    (hlen : 4 ≤ ip.length) {mask cmd : ℤ} (hmask : 0 ≤ mask) (hmask' : mask ≤ 32)
    (hcmd : Named cmd) :
    ∃ l', ipAddSm ndebug l ip mask cmd = .ok l' ∧ IpKept l' ∧
      ipRules l'.tree = addRule (ipRules l.tree) ip mask cmd := by
  have hne : cmd ≠ Ift.none := by
    rintro rfl
    revert hcmd
    rw [Named]
    decide
  obtain ⟨l', hadd, hnil, hheight, hrules, hcnt⟩ :=
    @ipAddSm_spec ndebug l h.ok.isNil ip mask hmask (Or.inr (by omega)) (by omega) cmd
  have hrules := hrules hne
  have hheight' := h.ok.height_le
  refine ⟨l', hadd, ⟨⟨hnil, by omega, ?_⟩, ?_, ?_⟩, hrules⟩
  · rw [hrules]
    exact addRule_nil h.ok.root ip hmask cmd
  · rw [hcnt, h.ipcnt, addedCount]
    rw [addRule] at hrules
    by_cases hsame : mask = 0 ∧ cmd = Ift.remove
    · rw [if_pos hsame] at hrules
      rw [if_pos hsame.1, add_zero, BinTrie.size_congr hrules]
    · rw [if_neg hsame] at hrules
      have hsize := BinTrie.size_update hrules
      by_cases hzero : mask = 0
      · -- the default is replaced
        have hr : cmd ≠ Ift.remove := fun h => hsame ⟨hzero, h⟩
        have hroot : (BinTrie.rules ruleOf l.tree (prefixBits ip mask.toNat)).isSome := by
          rw [hzero]
          exact Option.isSome_iff_ne_none.mpr h.ok.root
        rw [hroot, installed, if_neg hr] at hsize
        rw [if_pos hzero]
        simp only [Option.isSome_some, Bool.toNat_true] at hsize
        omega
      · rw [if_neg hzero]
        change _ + ((_ : ℤ) - ((ipRules l.tree _).isSome.toNat : ℤ)) = _
        have hsize' : l'.tree.size ruleOf +
            (ipRules l.tree (prefixBits ip mask.toNat)).isSome.toNat =
          l.tree.size ruleOf + (installed cmd).isSome.toNat := hsize
        omega
  · intro q v hv
    rw [hrules, addRule] at hv
    split_ifs at hv with hsame
    · exact h.cmd q v hv
    · by_cases hq : q = prefixBits ip mask.toNat
      · rw [hq, Function.update_self, installed] at hv
        split_ifs at hv with hr
        cases hv
        exact ⟨hcmd, hr⟩
      · rw [Function.update_of_ne hq] at hv
        exact h.cmd q v hv

/-- A call of `ip_add_sm` or `ip_match` keeps such a list. -/
theorem IpKept.call {l : IpList} (h : IpKept l) (ndebug : Bool) {c : IpCall} (hc : c.Valid) :
    ∃ l' out, ipCallStep ndebug l c = .ok (l', out) ∧ IpKept l' := by
  cases c with
  | add ip mask cmd =>
      obtain ⟨hlen, hmask, hmask', hcmd⟩ := hc
      obtain ⟨l', hadd, hl', -⟩ := h.add ndebug hlen hmask hmask' hcmd
      exact ⟨l', none, by rw [ipCallStep, hadd, ok_bind], hl'⟩
  | lookup ip =>
      obtain ⟨v, path, -, hmatch⟩ := ipMatch_eq ndebug h.ok hc
      refine ⟨_, some v, by rw [ipCallStep, hmatch, ok_bind], h.ok.countHit path, ?_, ?_⟩
      · rw [h.ipcnt]
        exact congrArg _ (BinTrie.size_congr (ipRules_modify_countHit l.tree path).symm)
      · rw [ipRules_modify_countHit]
        exact h.cmd

/-- **The table** has a block for each rule. -/
theorem ipTable_eq (ndebug : Bool) {l : IpList} (h : IpKept l) :
    ∃ blocks, ipTable ndebug l = .ok blocks ∧
      List.Forall₂ BlockOf (ipEntries l.tree) blocks := by
  obtain ⟨tree, ipcnt⟩ := l
  have hnil := h.ok.isNil
  have hheight := h.ok.height_le
  have hroot := h.ok.root
  have hcnt := h.ipcnt
  cases tree with
  | nil => cases hnil
  | node root zero one =>
      dsimp only at hcnt hheight
      rw [BinTrie.height] at hheight
      rw [BinTrie.size, show (ruleOf root).isSome = true from Option.isSome_iff_ne_none.mpr hroot,
        Bool.toNat_true] at hcnt
      have hblank : HoldsBits (List.replicate 16 0) [] := by
        refine ⟨rfl, fun j hj => ?_⟩
        rw [bitAt, List.getD_replicate _ (by omega)]
        simp
      obtain ⟨block, hblock⟩ : ∃ block : IpBlock, block =
          { size := 4, addr := buffer 16 [], mask := buffer 16 [], smask := 0
            count := root.count, cmd := root.cmd } := ⟨_, rfl⟩
      have hstore : storeBlock ipcnt [] block = .ok [block] :=
        if_pos (by rw [List.length_nil]; omega)
      have hself : BlockOf ([], root) block := by
        rw [hblock]
        exact ⟨rfl, rfl, rfl, rfl, rfl, hblank, hblank⟩
      have hlen : ([block] : List IpBlock).length = 1 := rfl
      have hfirst : bitOf ([] : List Bool).length true = 0x80 := rfl
      obtain ⟨zeros, hzeros, hzeroBlocks⟩ := ipCollect_eq ndebug ipcnt zero [] false
        (List.replicate 16 0) (List.replicate 16 0) [block] (by rw [List.length_nil]; omega)
        hblank hblank (by omega)
      rw [hfirst, bitOf_false, List.length_nil, Nat.zero_div] at hzeros
      have hcount := hzeroBlocks.length_eq
      rw [BinTrie.length_entries] at hcount
      obtain ⟨ones, hones, honeBlocks⟩ := ipCollect_eq ndebug ipcnt one [] true
        (List.replicate 16 0) (List.replicate 16 0) ([block] ++ zeros)
        (by rw [List.length_nil]; omega) hblank hblank
        (by rw [List.length_append]; omega)
      rw [hfirst, List.length_nil, Nat.zero_div] at hones
      refine ⟨[block] ++ zeros ++ ones, ?_, ?_⟩
      · rw [ipTable]
        dsimp only
        rw [← hblock, hstore, ok_bind, hzeros, ok_bind]
        dsimp only
        rw [hones, ok_bind]
      · rw [ipEntries, List.append_assoc]
        exact List.Forall₂.cons hself (List.rel_append hzeroBlocks honeBlocks)

/-! ### Reading a line back -/

/-- An octet with a dot behind it. -/
theorem iplistOctets_dot (n octetcount : ℕ) (ip : List UInt8) (a : UInt8)
    (rest : List UInt8) :
    iplistOctets (n + 1) octetcount ip (decimal a.toNat ++ 46 :: rest) =
      iplistOctets n (octetcount + 1) (ip.set octetcount a) rest := by
  have ha := a.toNat_lt
  rw [iplistOctets, strtoul_decimal (by omega) (by decide), ok_bind]
  dsimp only
  rw [if_neg (by decide), if_neg (by decide), UInt8.ofNat_toNat]

/-- An octet with the prefix length behind it. -/
theorem iplistOctets_slash (n octetcount : ℕ) (ip : List UInt8) (a : UInt8)
    (rest : List UInt8) :
    iplistOctets (n + 1) octetcount ip (decimal a.toNat ++ 47 :: rest) =
      .ok (some (ip.set octetcount a, 47 :: rest)) := by
  have ha := a.toNat_lt
  rw [iplistOctets, strtoul_decimal (by omega) (by decide), ok_bind]
  dsimp only
  rw [if_pos (by decide), UInt8.ofNat_toNat]

/-- **An address with a prefix length** is read into the first four bytes of the buffer. -/
theorem iplistOctets_dotted {ip : List UInt8} (hip : 4 ≤ ip.length) (a b c d : UInt8)
    (rest : List UInt8) :
    ∃ ip', iplistOctets 4 0 ip (dotted a b c d ++ 47 :: rest) =
        .ok (some (ip', 47 :: rest)) ∧ 4 ≤ ip'.length ∧ ip'.take 4 = [a, b, c, d] := by
  refine ⟨(((ip.set 0 a).set 1 b).set 2 c).set 3 d, ?_, by simpa using hip, ?_⟩
  · simp only [dotted, List.append_assoc, List.cons_append]
    rw [iplistOctets_dot, iplistOctets_dot, iplistOctets_dot, iplistOctets_slash]
  · rcases ip with _ | ⟨w, _ | ⟨x, _ | ⟨y, _ | ⟨z, ip⟩⟩⟩⟩
    · exact absurd hip (by simp)
    · exact absurd hip (by simp)
    · exact absurd hip (by simp)
    · exact absurd hip (by simp)
    · rfl

/-- A prefix length. -/
theorem iplistMask_decimal {n : ℕ} (hn : n ≤ 32) :
    iplistMask (47 :: (decimal n ++ [0])) = .ok (n : ℤ) := by
  have hint : toInt n = n := by
    rw [toInt]
    omega
  rw [iplistMask, List.head?_cons, if_pos rfl, List.tail_cons,
    strtoul_decimal (by omega) (by decide), ok_bind]
  dsimp only
  rw [hint]

/-- The first field of a line. -/
def addressField (b : IpBlock) : List UInt8 := ipv4 b.addr ++ 47 :: decimal b.smask

section Fields

variable {b : IpBlock}

theorem isAddressChar_addressField {c : UInt8} (hc : c ∈ addressField b) :
    IsAddressChar c := by
  rw [addressField, List.mem_append, List.mem_cons] at hc
  rcases hc with hc | rfl | hc
  · exact isAddressChar_dotted hc
  · exact Or.inr (Or.inr rfl)
  · exact Or.inl (isdigit_of_mem_decimal hc)

/-- It begins with a digit. -/
theorem addressField_eq_cons (b : IpBlock) :
    ∃ digit tail, isdigit digit = true ∧ addressField b = digit :: tail := by
  obtain ⟨digit, digits, hdigit, hdigits⟩ := decimal_eq_cons b.addr[0].toNat
  have hfirst : ∃ tail, addressField b = digit :: tail := by
    rw [addressField, ipv4, dotted, hdigits]
    exact ⟨_, rfl⟩
  obtain ⟨tail, htail⟩ := hfirst
  exact ⟨digit, tail, hdigit, htail⟩

theorem token_addressField (b : IpBlock) : Token (addressField b) := by
  obtain ⟨digit, tail, -, htail⟩ := addressField_eq_cons b
  refine ⟨?_, fun c hc => (isAddressChar_addressField hc).spec.1⟩
  rw [htail]
  exact List.cons_ne_nil _ _

/-- It is as wide as the format or narrower. -/
theorem length_addressField_le (hmask : b.smask ≤ 32) : (addressField b).length ≤ 18 := by
  have hip := length_dotted_le b.addr[0] b.addr[1] b.addr[2] b.addr[3]
  have hnum := length_decimal_le (n := b.smask) (k := 2) (by omega) (by omega)
  rw [addressField, List.length_append, List.length_cons, ipv4]
  omega

/-- **The two fields** of a line are left when it is trimmed. -/
theorem trimSpace_ipDumpLine {cgi : CgiLib} (hcgi : cgi.Behaves) (hmask : b.smask ≤ 32)
    (hcmd : Named b.cmd) :
    cgi.trimSpace (ipDumpLine b ++ [10]) = addressField b ++ 32 :: ciMapChars b.cmd cIft := by
  obtain ⟨hname, -, -⟩ := ciMapChars_spec hcmd
  obtain ⟨digit, tail, hdigit, htail⟩ := addressField_eq_cons b
  obtain ⟨last, hlast, hlastSpace⟩ := hname.getLast?
  obtain ⟨front, hfront, hfrontSpace⟩ := padLeft_eq 18 (addressField b)
  have hline : ipDumpLine b = front ++ (addressField b ++ 32 :: ciMapChars b.cmd cIft) := by
    rw [ipDumpLine, ← addressField, padded_of_le (length_addressField_le hmask), hfront,
      List.append_assoc]
  have hhead : (addressField b ++ 32 :: ciMapChars b.cmd cIft).head? = some digit := by
    rw [htail]
    rfl
  have hbodyLast : (addressField b ++ 32 :: ciMapChars b.cmd cIft).getLast? = some last := by
    rw [show addressField b ++ 32 :: ciMapChars b.cmd cIft =
      (addressField b ++ [32]) ++ ciMapChars b.cmd cIft by simp, List.getLast?_append, hlast]
    rfl
  rw [hline]
  exact hcgi.trimSpace_line hfrontSpace (not_isspace_of_isdigit hdigit).1 hlastSpace hhead
    hbodyLast

/-- They are in upper case. -/
theorem upString_fields {cgi : CgiLib} (hcgi : cgi.Behaves) (hcmd : Named b.cmd) :
    cgi.upString (addressField b ++ 32 :: ciMapChars b.cmd cIft) =
      addressField b ++ 32 :: ciMapChars b.cmd cIft := by
  obtain ⟨-, -, hupper⟩ := ciMapChars_spec hcmd
  have hid : ∀ c ∈ addressField b, toupper c = id c :=
    fun c hc => (isAddressChar_addressField hc).spec.2
  rw [hcgi.upString_eq, List.map_append, List.map_cons, hupper, List.map_congr_left hid,
    List.map_id]
  rfl

/-- **A line that was written** is read as the rule that it was written for. -/
theorem iplistLine_dumpLine {cgi : CgiLib} (hcgi : cgi.Behaves) (hmask : b.smask ≤ 32)
    (hcmd : Named b.cmd) {ip : List UInt8} (hip : 4 ≤ ip.length) :
    ∃ ip', iplistLine cgi ip (ipDumpLine b ++ [10]) = .ok (.rule b.smask b.cmd, ip') ∧
      4 ≤ ip'.length ∧ prefixBits ip' b.smask = prefixBits b.addr.toList b.smask := by
  obtain ⟨digit, tail, hdigit, htail⟩ := addressField_eq_cons b
  have hempty : cgi.emptyString (addressField b ++ 32 :: ciMapChars b.cmd cIft) = false := by
    refine hcgi.emptyString_eq_false (c := digit) ?_ (not_isspace_of_isdigit hdigit).1
    rw [htail]
    exact List.mem_cons_self
  have hsplit : split (addressField b ++ 32 :: ciMapChars b.cmd cIft) =
      .ok [addressField b, ciMapChars b.cmd cIft] := by
    rw [split, splitLoop_word (token_addressField b) rfl,
      splitLoop_last (ciMapChars_spec hcmd).1]
  have hhead : isdigit ((addressField b).headD 0) = true := by
    rw [htail]
    exact hdigit
  have hcmd' : b.cmd ≠ -1 := by
    rintro hminus
    rw [hminus, Named] at hcmd
    revert hcmd
    decide
  have hend : addressField b ++ [(0 : UInt8)] =
      dotted b.addr[0] b.addr[1] b.addr[2] b.addr[3] ++ 47 :: (decimal b.smask ++ [0]) := by
    rw [addressField, List.append_assoc]
    rfl
  obtain ⟨ip', hoctets, hip', htake⟩ := iplistOctets_dotted hip b.addr[0] b.addr[1] b.addr[2]
    b.addr[3] (decimal b.smask ++ [0])
  refine ⟨ip', ?_, hip', prefixBits_congr fun i hi => ?_⟩
  · rw [iplistLine]
    dsimp only
    rw [trimSpace_ipDumpLine hcgi hmask hcmd, hempty, if_neg Bool.false_ne_true,
      upString_fields hcgi hcmd, hsplit, ok_bind, List.headD_cons, if_neg (not_not.mpr hhead),
      hend, hoctets, ok_bind]
    dsimp only
    rw [iplistMask_decimal (by omega), ok_bind, if_neg (by omega)]
    dsimp only [List.getElem?_cons_succ, List.getElem?_cons_zero]
    rw [ciMapInt_ciMapChars hcmd, if_neg hcmd']
  · have hi : i < 4 := by omega
    have hget : ip'.getD i 0 = (ip'.take 4).getD i 0 := by
      rw [List.getD_eq_getElem?_getD, List.getD_eq_getElem?_getD, List.getElem?_take_of_lt hi]
    rw [hget, htake]
    obtain rfl | rfl | rfl | rfl : i = 0 ∨ i = 1 ∨ i = 2 ∨ i = 3 := by omega
    all_goals simp

end Fields

/-! ### Reading the rules back -/

/-- Reading blocks back, from rules that agree with those of a map outside the blocks, gives
the rules of the map. -/
theorem iplistRead_blocks {cgi : CgiLib} (hcgi : cgi.Behaves) (ndebug : Bool)
    {rules : IpRuleMap} {es : List (List Bool × IpNode)} {blocks : List IpBlock}
    (hblocks : List.Forall₂ BlockOf es blocks)
    (hes : ∀ e ∈ es, rules e.1 = some e.2.cmd ∧ e.1.length ≤ 32 ∧ Named e.2.cmd ∧
      e.2.cmd ≠ Ift.remove)
    {l : IpList} (h : IpKept l) (hrules : ∀ q, q ∉ es.map Prod.fst → ipRules l.tree q = rules q)
    {ip : List UInt8} (hip : 4 ≤ ip.length) :
    ∃ l', iplistRead cgi ndebug l ip (blocks.map fun b => ipDumpLine b ++ [10]) =
        .ok (l', true) ∧ IpKept l' ∧ ipRules l'.tree = rules := by
  induction hblocks generalizing l ip with
  | nil => exact ⟨l, rfl, h, funext fun q => hrules q (List.not_mem_nil)⟩
  | @cons e b es blocks hblock _ ih =>
      obtain ⟨he, hrest⟩ := List.forall_mem_cons.mp hes
      obtain ⟨hrule, hlen, hcmd, hremove⟩ := he
      obtain ⟨ip', hline, hip', hbits⟩ := iplistLine_dumpLine hcgi
        (by rw [hblock.smask]; exact hlen) (by rw [hblock.cmd]; exact hcmd) hip
      rw [hblock.addr] at hbits
      rw [hblock.cmd] at hline
      obtain ⟨l', hadd, hl', hrules'⟩ := @IpKept.add l h ndebug ip' hip' b.smask e.2.cmd
        (by omega) (by rw [hblock.smask]; omega) hcmd
      have hupdate : ipRules l'.tree = Function.update (ipRules l.tree) e.1 (some e.2.cmd) := by
        rw [hrules', addRule, if_neg (fun h => hremove h.2), Int.toNat_natCast, hbits, installed,
          if_neg hremove]
      have hagree : ∀ q, q ∉ es.map Prod.fst → ipRules l'.tree q = rules q := by
        intro q hq
        rw [hupdate]
        by_cases hself : q = e.1
        · rw [hself, Function.update_self, hrule]
        · rw [Function.update_of_ne hself]
          refine hrules q fun hmem => ?_
          rcases List.mem_cons.mp hmem with h | h
          · exact hself h
          · exact hq h
      obtain ⟨l'', hread, hl'', hall⟩ := ih hrest hl' hagree hip'
      refine ⟨l'', ?_, hl'', hall⟩
      rw [List.map_cons, iplistRead, hline, ok_bind]
      dsimp only
      rw [hadd, ok_bind]
      exact hread

/-- A line that was written has no newline inside. -/
theorem newline_notMem_ipDumpLine {b : IpBlock} (hcmd : Named b.cmd) : 10 ∉ ipDumpLine b := by
  intro hmem
  rw [ipDumpLine, List.mem_append, List.mem_cons] at hmem
  rcases hmem with h | h | h
  · rcases mem_padLeft h with h | h
    · exact absurd h (by decide)
    · have haddress := List.mem_of_mem_take h
      rw [List.mem_append, List.mem_cons] at haddress
      rcases haddress with h | h | h
      · exact absurd (isAddressChar_dotted h).spec.1 (by decide)
      · exact absurd h (by decide)
      · exact (token_decimal b.smask).notMem rfl h
  · exact absurd h (by decide)
  · exact (ciMapChars_spec hcmd).1.notMem rfl h

/-- **Saving and reading back.** -/
theorem IpKept.reload {cgi : CgiLib} (hcgi : cgi.Behaves) (ndebug ndebug' : Bool) {l : IpList}
    (h : IpKept l) {ip : List UInt8} (hip : 4 ≤ ip.length) :
    ∃ text l', iplistDumpStream ndebug l = .ok text ∧
      iplistRead cgi ndebug' IpList.init ip (getlines 10 text) = .ok (l', true) ∧
      IpKept l' ∧ ipRules l'.tree = ipRules l.tree := by
  obtain ⟨blocks, htable, hblocks⟩ := ipTable_eq ndebug h
  have hes : ∀ e ∈ ipEntries l.tree, ipRules l.tree e.1 = some e.2.cmd ∧ e.1.length ≤ 32 ∧
      Named e.2.cmd ∧ e.2.cmd ≠ Ift.remove := by
    rintro ⟨q, n⟩ he
    obtain ⟨hget, hn⟩ := (mem_ipEntries h.ok).mp he
    have hrule : ipRules l.tree q = some n.cmd := by
      rw [isSome_ruleOf, decide_eq_true_eq] at hn
      rw [ipRules, BinTrie.rules, hget, Option.bind_some, ruleOf, if_neg hn]
    have hlen : q.length ≤ 32 :=
      Nat.le_of_lt_succ ((BinTrie.length_lt_height hget).trans_le h.ok.height_le)
    exact ⟨hrule, hlen, h.cmd q n.cmd hrule⟩
  have hrules : ∀ q, q ∉ (ipEntries l.tree).map Prod.fst →
      ipRules IpList.init.tree q = ipRules l.tree q := by
    intro q hq
    have hnone : ipRules l.tree q = none := by
      refine Option.eq_none_iff_forall_ne_some.mpr fun v hv => hq ?_
      obtain ⟨n, hget, hn⟩ := Option.bind_eq_some_iff.mp hv
      have hmem := (mem_ipEntries h.ok).mpr ⟨hget, Option.isSome_iff_exists.mpr ⟨v, hn⟩⟩
      exact List.mem_map_of_mem (f := Prod.fst) hmem
    have hroot : q ≠ [] := by
      rintro rfl
      exact h.ok.root hnone
    rw [hnone, ipRules_init, initRules, Function.update_of_ne hroot]
  obtain ⟨l', hread, hl', hsame⟩ := iplistRead_blocks hcgi ndebug' hblocks hes ipKept_init
    hrules hip
  have hnewline : ∀ b ∈ blocks, 10 ∉ ipDumpLine b := by
    intro b hb
    obtain ⟨i, hi, rfl⟩ := List.mem_iff_getElem.mp hb
    have hi' : i < (ipEntries l.tree).length := by rwa [hblocks.length_eq]
    have hblock := hblocks.get hi' hi
    refine newline_notMem_ipDumpLine ?_
    have hcmd := (hes _ (List.getElem_mem hi')).2.2.1
    exact hblock.cmd ▸ hcmd
  refine ⟨_, l', by rw [iplistDumpStream, htable, ok_bind], ?_, hl', hsame⟩
  have hlines := getlines_flatMap hnewline []
  rw [List.append_nil, getlines, List.append_nil] at hlines
  rw [hlines]
  exact hread

/-- Calls of `ip_add_sm` and `ip_match` keep a list of rules. -/
theorem IpKept.run {l : IpList} (h : IpKept l) (ndebug : Bool) {calls : List IpCall}
    (hcalls : ∀ c ∈ calls, c.Valid) :
    ∃ l' outs, StepRun.run (ipCallStep ndebug) l calls = .ok (l', outs) ∧ IpKept l' := by
  induction calls generalizing l with
  | nil => exact ⟨l, [], rfl, h⟩
  | cons c calls ih =>
      obtain ⟨hc, hrest⟩ := List.forall_mem_cons.mp hcalls
      obtain ⟨l₁, out, hstep, hl₁⟩ := h.call ndebug hc
      obtain ⟨l', outs, hrun, hl'⟩ := ih hl₁ hrest
      refine ⟨l', out :: outs, ?_, hl'⟩
      rw [run_cons_of_ok calls hstep, hrun]
      rfl

/-- **Saved rules are read back.** Whatever calls of `ip_add_sm` and `ip_match` have made of
the tree, its rules are saved to a file from which a fresh tree gets the same rules, as
many as `g_ipcnt` counts, and so the same verdict for every address. -/
theorem run_iplist_reload {cgi : CgiLib} (hcgi : cgi.Behaves) (ndebug ndebug' : Bool)
    {calls : List IpCall} (hcalls : ∀ c ∈ calls, c.Valid) {ip : List UInt8}
    (hip : 4 ≤ ip.length) :
    ∃ l outs text l', run (ipCallStep ndebug) IpList.init calls = .ok (l, outs) ∧
      iplistDumpStream ndebug l = .ok text ∧
      iplistRead cgi ndebug' IpList.init ip (getlines 10 text) = .ok (l', true) ∧
      ipRules l'.tree = ipRules l.tree ∧ l'.ipcnt = l.ipcnt ∧
      ∀ a : List UInt8, 5 ≤ a.length →
        ∃ v t t', ipMatch ndebug l.tree a = .ok (v, t) ∧
          ipMatch ndebug' l'.tree a = .ok (v, t') := by
  obtain ⟨l, outs, hrun, hl⟩ := ipKept_init.run ndebug hcalls
  obtain ⟨text, l', hdump, hread, hl', hrules⟩ := hl.reload hcgi ndebug ndebug' hip
  refine ⟨l, outs, text, l', hrun, hdump, hread, hrules, ?_, fun a ha => ?_⟩
  · rw [hl'.ipcnt, hl.ipcnt, BinTrie.size_congr hrules]
  · obtain ⟨v, path, hv, hmatch⟩ := ipMatch_eq ndebug hl.ok ha
    obtain ⟨v', path', hv', hmatch'⟩ := ipMatch_eq ndebug' hl'.ok ha
    rw [hrules, hv] at hv'
    cases hv'
    exact ⟨v, _, _, hmatch, hmatch'⟩

/-- A network that is rejected with a host in it that expires, and another default. -/
theorem run_iplist_reload_nested :
    ∃ l outs text l',
      run (ipCallStep false) IpList.init
        [.add [10, 0, 0, 0] 8 Ift.reject, .add [10, 1, 2, 3] 32 Ift.expire,
          .add [0, 0, 0, 0] 0 Ift.accept] = .ok (l, outs) ∧
      iplistDumpStream false l = .ok text ∧
      iplistRead stdCgi false IpList.init [0, 0, 0, 0] (getlines 10 text) = .ok (l', true) ∧
      ipRules l'.tree = ipRules l.tree ∧ l'.ipcnt = l.ipcnt ∧
      ∀ a : List UInt8, 5 ≤ a.length →
        ∃ v t t', ipMatch false l.tree a = .ok (v, t) ∧ ipMatch false l'.tree a = .ok (v, t') :=
  run_iplist_reload stdCgi_behaves false false
    (by simp [IpCall.Valid, Ift.greylist, Ift.accept, Ift.reject, Ift.remove, Ift.expire])
    (by decide)

end XGrey
