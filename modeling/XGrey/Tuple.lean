import Mathlib.Data.Rat.Defs
import Mathlib.Algebra.Order.Ring.Unbundled.Rat
import XGrey.Lib.Lexicographic
import XGrey.Protocol

/-!
# Tuples and their Order

The record `struct tuple` of `server/server.h` that the daemon keeps for every triple of
client address, sender and recipient, its flags, and the comparison `tuple_look_ift` that
sorts the tuple space.

The three sizes a tuple relies on are part of its type: the address buffer has sixteen
bytes, the text buffers 108, and the two texts fill at most 107 of them.

## Main results

* `tupleLookIft_compares`: `tuple_look_ift` decides a linear order on the keys of tuples,
  where the key (`Tuple.key`) is the address and the used part of the two texts. Bytes
  behind the sizes, flags and timestamps play no part.
* `tupleLookIft_order`: what this means for the comparison itself.
-/

open CRuntime Lexicographic

namespace XGrey

/-- The settings of the server (`conf.h`, `server/globals.c`) and of its build. -/
structure Config where
  /-- Whether the build defines `NDEBUG`. -/
  ndebug : Bool
  /-- `c_poolmax`: how many tuples there is room for. -/
  poolmax : ℕ
  /-- `c_timeout_embargo`, in seconds. -/
  timeoutEmbargo : ℚ
  /-- `c_timeout_grey`, in seconds. -/
  timeoutGrey : ℚ
  /-- `c_timeout_white`, in seconds. -/
  timeoutWhite : ℚ
  /-- `c_secret`, with `c_secretsize` its length. -/
  secret : List UInt8
  /-- `c_time_cleanup`, in seconds. -/
  timeCleanup : ℕ
  /-- There is room for a tuple. -/
  poolmax_pos : 0 < poolmax
  /-- The secret is a nonempty constant of the build. -/
  secret_ne : secret ≠ []

/-- `difftime`, exact on the times the server sees. -/
def difftime (t₁ t₀ : ℤ) : ℚ := (t₁ - t₀ : ℤ)

/-! ### Flags -/

/-- The type `flags`. -/
abbrev Flags := BitVec 32

/-- `F_WHITELIST`. -/
def fWhitelist : Flags := 1#32 <<< 0
/-- `F_REMOVE`. -/
def fRemove : Flags := 1#32 <<< 1
/-- `F_TRUNCFROM`. -/
def fTruncfrom : Flags := 1#32 <<< 2
/-- `F_TRUNCTO`. -/
def fTruncto : Flags := 1#32 <<< 3
/-- `F_IPv6`. -/
def fIPv6 : Flags := 1#32 <<< 4

/-- The test `f & flag`. -/
def hasFlag (f flag : Flags) : Bool := f &&& flag != 0#32

/-- Setting flags adds to those that are set. -/
@[simp] theorem hasFlag_or (f g flag : Flags) :
    hasFlag (f ||| g) flag = (hasFlag f flag || hasFlag g flag) := by
  have h : ((f ||| g) &&& flag = 0#32) ↔ (f &&& flag = 0#32 ∧ g &&& flag = 0#32) := by
    rw [BitVec.and_or_distrib_right, BitVec.or_eq_zero_iff]
  rw [Bool.eq_iff_iff]
  simp only [hasFlag, bne_iff_ne, ne_eq, Bool.or_eq_true, h, not_and_or]

@[simp] theorem hasFlag_zero (flag : Flags) : hasFlag 0#32 flag = false := by
  simp [hasFlag]

@[simp] theorem hasFlag_whitelist_whitelist : hasFlag fWhitelist fWhitelist = true := rfl
@[simp] theorem hasFlag_whitelist_remove : hasFlag fWhitelist fRemove = false := rfl
@[simp] theorem hasFlag_remove_whitelist : hasFlag fRemove fWhitelist = false := rfl
@[simp] theorem hasFlag_remove_remove : hasFlag fRemove fRemove = true := rfl

/-! ### Tuples -/

/-- The key of a tuple: the sixteen address bytes and the two texts, compared in this
order. -/
abbrev Key := List UInt8 ×ₗ List UInt8 ×ₗ List UInt8

/-- `struct tuple`. -/
structure Tuple where
  ctime : ℤ
  atime : ℤ
  fromsize : ℕ
  tosize : ℕ
  pad : ℕ
  f : Flags
  ip : Vector UInt8 16
  fromText : Vector UInt8 108
  toText : Vector UInt8 108
  /-- The sender leaves room for its terminator. -/
  fromsize_le : fromsize ≤ 107
  /-- The recipient leaves room for its terminator. -/
  tosize_le : tosize ≤ 107
  deriving DecidableEq

/-- The marker that the assertions look for in `pad`. -/
def decafbad : ℕ := 0xDECAFBAD

/-- A buffer of `n` bytes that starts with the given ones, the rest zero. -/
def buffer (n : ℕ) (bytes : List UInt8) : Vector UInt8 n :=
  ⟨⟨bytes.take n ++ List.replicate (n - bytes.length) 0⟩, by
    simp only [List.size_toArray, List.length_append, List.length_take,
      List.length_replicate]
    omega⟩

/-- The content of a buffer. -/
theorem toList_buffer (n : ℕ) (bytes : List UInt8) :
    (buffer n bytes).toList = bytes.take n ++ List.replicate (n - bytes.length) 0 :=
  rfl

/-- The bytes that were put into a buffer with room for them are its first ones. -/
theorem take_toList_buffer {n : ℕ} {bytes : List UInt8} (h : bytes.length ≤ n) :
    (buffer n bytes).toList.take bytes.length = bytes := by
  rw [toList_buffer, List.take_of_length_le h, List.take_left]

/-- The string in a buffer with room for its bytes. -/
theorem takeWhile_buffer {n : ℕ} {bytes : List UInt8} (h : bytes.length ≤ n) :
    (buffer n bytes).toList.takeWhile (· ≠ 0) = bytes.takeWhile (· ≠ 0) := by
  rw [toList_buffer, List.take_of_length_le h]
  generalize n - bytes.length = pad
  induction bytes with
  | nil => cases pad <;> rfl
  | cons c bytes ih =>
      have hrest := ih (Nat.le_of_succ_le h)
      by_cases hc : c = 0
      · rw [hc]
        rfl
      · rw [List.cons_append, List.takeWhile_cons_of_pos (by simpa using hc), hrest,
          List.takeWhile_cons_of_pos (by simpa using hc)]

/-- A record of zeros, as `calloc` and `memset` make it. -/
instance : Inhabited Tuple where
  default :=
    { ctime := 0, atime := 0, fromsize := 0, tosize := 0, pad := 0, f := 0#32
      ip := buffer 16 [], fromText := buffer 108 [], toText := buffer 108 []
      fromsize_le := Nat.zero_le _, tosize_le := Nat.zero_le _ }

namespace Tuple

/-- The used part of the sender buffer. -/
def fromBytes (t : Tuple) : List UInt8 := t.fromText.toList.take t.fromsize

/-- The used part of the recipient buffer. -/
def toBytes (t : Tuple) : List UInt8 := t.toText.toList.take t.tosize

/-- What identifies a tuple. -/
def key (t : Tuple) : Key := toLex (t.ip.toList, toLex (t.fromBytes, t.toBytes))

/-- Whether the tuple is whitelisted. -/
def whitelisted (t : Tuple) : Bool := hasFlag t.f fWhitelist

/-- Whether the tuple is marked for removal. -/
def removed (t : Tuple) : Bool := hasFlag t.f fRemove

/-- `t->f |= flag`. -/
def setFlag (t : Tuple) (flag : Flags) : Tuple := { t with f := t.f ||| flag }

/-- `t->atime = now`. -/
def touch (t : Tuple) (now : ℤ) : Tuple := { t with atime := now }

@[simp] theorem length_fromBytes (t : Tuple) : t.fromBytes.length = t.fromsize := by
  have := t.fromsize_le
  simp [fromBytes]
  omega

@[simp] theorem length_toBytes (t : Tuple) : t.toBytes.length = t.tosize := by
  have := t.tosize_le
  simp [toBytes]
  omega

@[simp] theorem key_setFlag (t : Tuple) (flag : Flags) : (t.setFlag flag).key = t.key := rfl
@[simp] theorem key_touch (t : Tuple) (now : ℤ) : (t.touch now).key = t.key := rfl
@[simp] theorem ctime_setFlag (t : Tuple) (flag : Flags) :
    (t.setFlag flag).ctime = t.ctime := rfl
@[simp] theorem atime_setFlag (t : Tuple) (flag : Flags) :
    (t.setFlag flag).atime = t.atime := rfl
@[simp] theorem ctime_touch (t : Tuple) (now : ℤ) : (t.touch now).ctime = t.ctime := rfl
@[simp] theorem atime_touch (t : Tuple) (now : ℤ) : (t.touch now).atime = now := rfl
@[simp] theorem whitelisted_touch (t : Tuple) (now : ℤ) :
    (t.touch now).whitelisted = t.whitelisted := rfl
@[simp] theorem removed_touch (t : Tuple) (now : ℤ) :
    (t.touch now).removed = t.removed := rfl

@[simp] theorem whitelisted_setFlag_whitelist (t : Tuple) :
    (t.setFlag fWhitelist).whitelisted = true := by
  simp [whitelisted, setFlag]

@[simp] theorem removed_setFlag_whitelist (t : Tuple) :
    (t.setFlag fWhitelist).removed = t.removed := by
  simp [removed, setFlag]

@[simp] theorem whitelisted_setFlag_remove (t : Tuple) :
    (t.setFlag fRemove).whitelisted = t.whitelisted := by
  simp [whitelisted, setFlag]

@[simp] theorem removed_setFlag_remove (t : Tuple) :
    (t.setFlag fRemove).removed = true := by
  simp [removed, setFlag]

end Tuple

/-! ### The order of the tuple space -/

/-- `tuple_look_ift`: compares the addresses, then the senders over their common length,
then the lengths, then the recipients the same way. -/
def tupleLookIft (k v : Tuple) : Ordering :=
  match memcmp k.ip.toList v.ip.toList 16 with
  | .eq =>
      let len := if k.fromsize < v.fromsize then k.fromsize else v.fromsize
      match memcmp k.fromText.toList v.fromText.toList len with
      | .eq =>
          if k.fromsize < v.fromsize then .lt
          else if k.fromsize > v.fromsize then .gt
          else
            let len := if k.tosize < v.tosize then k.tosize else v.tosize
            match memcmp k.toText.toList v.toText.toList len with
            | .eq => if k.tosize < v.tosize then .lt else if k.tosize > v.tosize then .gt else .eq
            | rc => rc
      | rc => rc
  | rc => rc

/-- One counted string of the comparison: the common prefix, then the sizes. -/
theorem counted_compares (a b : List UInt8) (m n : ℕ) (hm : m ≤ a.length)
    (hn : n ≤ b.length) :
    ((memcmp a b (if m < n then m else n)).then (cmp m n)).Compares (a.take m) (b.take n) := by
  have h := memcmp_then_length_compares (a.take m) (b.take n)
  have hmin : (if m < n then m else n) = min m n := by
    split_ifs <;> omega
  rw [List.length_take_of_le hm, List.length_take_of_le hn,
    memcmp_take a b (Nat.min_le_left m n) (Nat.min_le_right m n)] at h
  rwa [hmin]

/-- The comparison is the chain of its three stages. -/
theorem tupleLookIft_eq_then (k v : Tuple) :
    tupleLookIft k v =
      (memcmp k.ip.toList v.ip.toList 16).then
        (((memcmp k.fromText.toList v.fromText.toList
            (if k.fromsize < v.fromsize then k.fromsize else v.fromsize)).then
          (cmp k.fromsize v.fromsize)).then
        ((memcmp k.toText.toList v.toText.toList
            (if k.tosize < v.tosize then k.tosize else v.tosize)).then
          (cmp k.tosize v.tosize))) := by
  unfold tupleLookIft cmp cmpUsing
  cases memcmp k.ip.toList v.ip.toList 16 with
  | lt => rfl
  | gt => rfl
  | eq =>
      dsimp only
      cases memcmp k.fromText.toList v.fromText.toList
          (if k.fromsize < v.fromsize then k.fromsize else v.fromsize) with
      | lt => rfl
      | gt => rfl
      | eq =>
          dsimp only [GT.gt]
          split_ifs <;> rfl

/-- **`tuple_look_ift` decides the order of the keys.** -/
theorem tupleLookIft_compares (k v : Tuple) : (tupleLookIft k v).Compares k.key v.key := by
  have hk := k.fromsize_le
  have hk' := k.tosize_le
  have hv := v.fromsize_le
  have hv' := v.tosize_le
  rw [tupleLookIft_eq_then]
  refine then_compares_toLex (memcmp_compares (by simp) (by simp)) ?_
  refine then_compares_toLex (counted_compares _ _ _ _ ?_ ?_) (counted_compares _ _ _ _ ?_ ?_) <;>
    simp <;> omega

theorem tupleLookIft_eq_cmp (k v : Tuple) : tupleLookIft k v = cmp k.key v.key :=
  (tupleLookIft_compares k v).cmp_eq.symm

/-- The key of a tuple is its address and the used part of the two texts. -/
theorem Tuple.key_eq_iff {k v : Tuple} :
    k.key = v.key ↔ k.ip = v.ip ∧ k.fromBytes = v.fromBytes ∧ k.toBytes = v.toBytes := by
  rw [Tuple.key, Tuple.key, toLex_inj, Prod.mk.injEq, toLex_inj, Prod.mk.injEq,
    Vector.toList_inj]

/-- **`tuple_look_ift` is the comparison of a total order.** It changes its sign with the
order of its arguments, it is transitive, strictly so if one of the two comparisons is
strict, and it takes two tuples for equal exactly if they have the same address and the same
bytes in front of their sizes; nothing else of a tuple plays a part. -/
theorem tupleLookIft_order :
    (∀ k v, tupleLookIft v k = (tupleLookIft k v).swap) ∧
      (∀ a b c, tupleLookIft a b ≠ .gt → tupleLookIft b c ≠ .gt → tupleLookIft a c ≠ .gt ∧
        (tupleLookIft a c = .eq → tupleLookIft a b = .eq ∧ tupleLookIft b c = .eq)) ∧
      (∀ k v, tupleLookIft k v = .eq ↔
        k.ip = v.ip ∧ k.fromBytes = v.fromBytes ∧ k.toBytes = v.toBytes) ∧
      ∀ k k' v v' : Tuple,
        (k.ip = k'.ip ∧ k.fromBytes = k'.fromBytes ∧ k.toBytes = k'.toBytes) →
        (v.ip = v'.ip ∧ v.fromBytes = v'.fromBytes ∧ v.toBytes = v'.toBytes) →
        tupleLookIft k v = tupleLookIft k' v' := by
  refine ⟨fun k v => ?_, fun a b c hab hbc => ?_, fun k v => ?_, fun k k' v v' hk hv => ?_⟩
  · rw [tupleLookIft_eq_cmp, tupleLookIft_eq_cmp, cmp_swap]
  · rw [(tupleLookIft_compares a b).ne_gt] at hab
    rw [(tupleLookIft_compares b c).ne_gt] at hbc
    rw [(tupleLookIft_compares a c).ne_gt, (tupleLookIft_compares a c).eq_eq,
      (tupleLookIft_compares a b).eq_eq, (tupleLookIft_compares b c).eq_eq]
    refine ⟨hab.trans hbc, fun hac => ?_⟩
    have hab' : a.key = b.key := le_antisymm hab (hac ▸ hbc)
    exact ⟨hab', hab' ▸ hac⟩
  · rw [(tupleLookIft_compares k v).eq_eq, Tuple.key_eq_iff]
  · rw [tupleLookIft_eq_cmp, tupleLookIft_eq_cmp, Tuple.key_eq_iff.mpr hk,
      Tuple.key_eq_iff.mpr hv]

end XGrey
