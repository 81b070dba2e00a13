import XGrey.EmailDomain
import XGrey.TupleAdd

/-!
# Binary Search in Memory

`bisearch` as it runs on the machine: its indices are of type `size_t`, the element in the
middle is found by its distance from the base in bytes, and it is read before it is handed
to the comparison. An index that does not fit its type is a fault here, and so is a read
that is not one of an element of the array.

## Main results

* `bisearchRun_eq`: on any array that fits into memory nothing of the kind happens, and the
  result is that of the search over indices.
* `bisearchRun_finds`: what the search finds in a strictly sorted array.
* `bisearchRun_tupleSearch`, `bisearchRun_edomainSearch`: the searches of the server.
-/

open ArrayShift CRuntime Lexicographic SortedSeq

namespace XGrey

/-! ### The loop -/

/-- A computation in `size_t` has the value that it should have. -/
def sizeFits (n : ℤ) : Exec Unit :=
  if 0 ≤ n ∧ n < 18446744073709551616 then .ok () else .error .wrap

theorem sizeFits_of {n : ℤ} (h : 0 ≤ n) (h' : n < 18446744073709551616) :
    sizeFits n = .ok () := if_pos ⟨h, h'⟩

section Search

variable {α : Type} (compare : α → Ordering) (base : List α) (size : ℕ)

/-- The element at a distance of `off` bytes from the base of an array. -/
def elementAt (off : ℕ) : Exec α :=
  if off % size = 0 then peek base (off / size : ℕ) else .error .memory

/-- The loop of `bisearch`, where `compare` compares the key with an element. -/
def bisearchRunLoop (first len : ℕ) : Exec Found :=
  if _h : len > 0 then do
    let half := len / 2
    sizeFits (first + half)
    let middle := first + half
    sizeFits (middle * size)
    let pivot ← elementAt base size (middle * size)
    match compare pivot with
    | .gt => do
        sizeFits (middle + 1)
        sizeFits ((len : ℤ) - half)
        sizeFits ((len : ℤ) - half - 1)
        bisearchRunLoop (middle + 1) (len - half - 1)
    | .eq => .ok { datum := some middle, idx := middle }
    | .lt => bisearchRunLoop first half
  else
    .ok { datum := none, idx := first }
termination_by len
decreasing_by all_goals omega

/-- `bisearch`. The base of an array with elements is not `NULL`. -/
def bisearchRun (ndebug : Bool) : Exec Found := do
  cassert ndebug (size > 0)
  bisearchRunLoop compare base size 0 base.length

/-- The comparison with the element at an index. -/
def compareAt (i : ℕ) : Ordering :=
  match base[i]? with
  | some a => compare a
  | none => .eq

variable {compare base size}

theorem compareAt_eq {i : ℕ} (h : i < base.length) :
    compareAt compare base i = compare base[i] := by
  rw [compareAt, List.getElem?_eq_getElem h]

/-- The element in the middle of a window is read. -/
theorem elementAt_eq (hsize : 0 < size) {i : ℕ} (h : i < base.length) :
    elementAt base size (i * size) = .ok base[i] := by
  rw [elementAt, Nat.mul_mod_left, if_pos rfl, Nat.mul_div_cancel _ hsize, peek,
    if_pos (Int.natCast_nonneg i), Int.toNat_natCast, List.getElem?_eq_getElem h]

/-- **The loop on the machine** does what it does on indices. -/
theorem bisearchRunLoop_eq (hsize : 0 < size)
    (hfit : base.length * size < 18446744073709551616) {first len : ℕ}
    (hle : first + len ≤ base.length) :
    bisearchRunLoop compare base size first len =
      .ok (bisearchLoop (compareAt compare base) first len) := by
  induction len using Nat.strongRecOn generalizing first with
  | ind len ih =>
    rw [bisearchRunLoop, bisearchLoop]
    split_ifs with hlen
    · have hmid : first + len / 2 < base.length := by omega
      have hlength : base.length ≤ base.length * size := Nat.le_mul_of_pos_right _ hsize
      have hoff : (first + len / 2) * size < base.length * size :=
        Nat.mul_lt_mul_of_pos_right hmid hsize
      have hoff' : (((first + len / 2) * size : ℕ) : ℤ) < 18446744073709551616 := by
        exact_mod_cast hoff.trans hfit
      rw [Int.natCast_mul] at hoff'
      dsimp only
      rw [sizeFits_of (by omega) (by omega), ok_bind,
        sizeFits_of (Int.mul_nonneg (Int.natCast_nonneg _) (Int.natCast_nonneg _)) hoff',
        ok_bind, elementAt_eq hsize hmid, ok_bind, compareAt_eq hmid]
      cases compare base[first + len / 2] with
      | eq => rfl
      | gt =>
          dsimp only
          rw [sizeFits_of (by omega) (by omega), ok_bind, sizeFits_of (by omega) (by omega),
            ok_bind, sizeFits_of (by omega) (by omega), ok_bind]
          exact ih (len - len / 2 - 1) (by omega) (by omega)
      | lt => exact ih (len / 2) (by omega) (by omega)
    · rfl

/-- **`bisearch` on the machine** reads elements of the array only, computes no index that
does not fit, and returns what the search over the indices does. -/
theorem bisearchRun_eq (ndebug : Bool) (hsize : 0 < size)
    (hfit : base.length * size < 18446744073709551616) :
    bisearchRun compare base size ndebug =
      .ok (bisearch (compareAt compare base) base.length) := by
  rw [bisearchRun, cassert_of hsize, ok_bind,
    bisearchRunLoop_eq hsize hfit (Nat.zero_add _).le]
  rfl

/-! ### What is found -/

/-- Where a key belongs that an array does not have. -/
structure InsertsAt (compare : α → Ordering) (base : List α) (idx : ℕ) : Prop where
  le_length : idx ≤ base.length
  /-- The elements before the index are smaller than the key. -/
  smaller : ∀ a ∈ base.take idx, compare a = .gt
  /-- The elements from the index on are larger. -/
  larger : ∀ a ∈ base.drop idx, compare a = .lt

/-- A search has found what there is to find. -/
structure Finds (compare : α → Ordering) (base : List α) (found : Found) : Prop where
  isSome_iff : found.datum.isSome = true ↔ ∃ a ∈ base, compare a = .eq
  /-- The element that is returned matches, and the index is that of the only one. -/
  matching : ∀ i, found.datum = some i → found.idx = i ∧
    (∃ a, base[i]? = some a ∧ compare a = .eq) ∧
    ∀ j a, base[j]? = some a → compare a = .eq → j = i
  /-- Otherwise the index is the only one at which the key belongs. -/
  missing : found.datum = none → InsertsAt compare base found.idx ∧
    ∀ idx, InsertsAt compare base idx → idx = found.idx

section Sorted

variable {K : Type*} [LinearOrder K] {k : K} {place : α → K}

/-- In a sorted array it is the insertion point of the key. -/
theorem insertsAt_iff (hcmp : ∀ a, (compare a).Compares k (place a)) {idx : ℕ} :
    InsertsAt compare base idx ↔ SplitsAt k (base.map place) idx := by
  have hgt : ∀ a, compare a = .gt ↔ place a < k := fun a => (hcmp a).eq_gt
  have hlt : ∀ a, compare a = .lt ↔ k < place a := fun a => (hcmp a).eq_lt
  constructor
  · rintro ⟨hle, hsmaller, hlarger⟩
    refine ⟨by rwa [List.length_map], fun x hx => ?_, fun x hx => ?_⟩
    · rw [← List.map_take] at hx
      obtain ⟨a, ha, rfl⟩ := List.mem_map.mp hx
      exact (hgt a).mp (hsmaller a ha)
    · rw [← List.map_drop] at hx
      obtain ⟨a, ha, rfl⟩ := List.mem_map.mp hx
      exact (hlt a).mp (hlarger a ha)
  · rintro ⟨hle, hsmaller, hlarger⟩
    refine ⟨by rwa [List.length_map] at hle, fun a ha => ?_, fun a ha => ?_⟩
    · refine (hgt a).mpr (hsmaller _ ?_)
      rw [← List.map_take]
      exact List.mem_map_of_mem ha
    · refine (hlt a).mpr (hlarger _ ?_)
      rw [← List.map_drop]
      exact List.mem_map_of_mem ha

/-- A matching element has the place of the key. -/
theorem mem_map_place_iff (hcmp : ∀ a, (compare a).Compares k (place a)) :
    k ∈ base.map place ↔ ∃ a ∈ base, compare a = .eq := by
  rw [List.mem_map]
  refine exists_congr fun a => and_congr_right fun _ => ?_
  rw [(hcmp a).eq_eq, eq_comm]

/-- **The search** over the indices of a strictly sorted array finds what there is. -/
theorem bisearch_finds (hbase : (base.map place).Pairwise (· < ·))
    (hcmp : ∀ a, (compare a).Compares k (place a)) :
    Finds compare base (bisearch (compareAt compare base) base.length) := by
  have hlen : (base.map place).length = base.length := List.length_map _
  have hat : ∀ i (h : i < (base.map place).length),
      (compareAt compare base i).Compares k (base.map place)[i] := by
    intro i h
    rw [compareAt_eq (hlen ▸ h), List.getElem_map]
    exact hcmp _
  rcases bisearch_spec hbase hat with ⟨i, hi, hfound, hplace⟩ | ⟨idx, hfound, hsplit⟩
  · have hi' : i < base.length := hlen ▸ hi
    rw [List.getElem_map] at hplace
    have hmatch : compare base[i] = .eq := (hcmp _).eq_eq.mpr hplace.symm
    rw [hlen] at hfound
    rw [hfound]
    refine ⟨⟨fun _ => ⟨base[i], List.getElem_mem hi', hmatch⟩, fun _ => rfl⟩, ?_,
      fun hnone => (nomatch hnone)⟩
    rintro _ ⟨⟩
    refine ⟨rfl, ⟨base[i], List.getElem?_eq_getElem hi', hmatch⟩, fun j a hj ha => ?_⟩
    obtain ⟨hj', rfl⟩ := List.getElem?_eq_some_iff.mp hj
    -- two elements in one place are one element
    have hplaced : j < (base.map place).length := hlen.symm ▸ hj'
    have hsame : (base.map place)[j] = (base.map place)[i] := by
      rw [List.getElem_map, List.getElem_map, hplace]
      exact ((hcmp _).eq_eq.mp ha).symm
    have hnodup : (base.map place).Nodup := hbase.imp fun hlt => hlt.ne
    exact (List.Nodup.getElem_inj_iff hnodup).mp hsame
  · rw [hlen] at hfound
    rw [hfound]
    refine ⟨⟨fun h => (nomatch h), fun hmem => ?_⟩, fun i h => (nomatch h), fun _ => ⟨?_, ?_⟩⟩
    · exact absurd ((mem_map_place_iff hcmp).mpr hmem) hsplit.notMem
    · exact (insertsAt_iff hcmp).mpr hsplit
    · intro idx' h
      exact (((insertsAt_iff hcmp).mp h).eq_countP).trans hsplit.eq_countP.symm

/-- **`bisearch`** on an array that is strictly sorted for a comparison with a key, where the
comparison is that of a total order: it returns, with no index beyond the array and none
that does not fit its type, the matching element if there is one, and otherwise where the
key belongs, so that the array is sorted again when it is inserted there. -/
theorem bisearchRun_finds (ndebug : Bool) (hsize : 0 < size)
    (hfit : base.length * size < 18446744073709551616)
    (hbase : (base.map place).Pairwise (· < ·))
    (hcmp : ∀ a, (compare a).Compares k (place a)) :
    ∃ found, bisearchRun compare base size ndebug = .ok found ∧ Finds compare base found ∧
      (found.datum = none → ∀ x, place x = k →
        ((insertAt base found.idx x).map place).Pairwise (· < ·)) := by
  have hfinds := bisearch_finds hbase hcmp
  refine ⟨_, bisearchRun_eq ndebug hsize hfit, hfinds, fun hnone x hx => ?_⟩
  have hsplit := (insertsAt_iff hcmp).mp (hfinds.missing hnone).1
  have hmap : (insertAt base (bisearch (compareAt compare base) base.length).idx x).map place =
      insertAt (base.map place) (bisearch (compareAt compare base) base.length).idx k := by
    rw [insertAt, insertAt, List.map_append, List.map_cons, hx, List.map_take, List.map_drop]
  rw [hmap]
  exact hsplit.pairwise_insert hbase

/-- The numbers 2, 3 and 7 as an array of `int`, searched for 5. -/
theorem bisearchRun_finds_five :
    ∃ found, bisearchRun (fun a : ℕ => cmp 5 a) [2, 3, 7] 4 false = .ok found ∧
      Finds (fun a : ℕ => cmp 5 a) [2, 3, 7] found ∧
      (found.datum = none → ∀ x, id x = 5 →
        ((insertAt [2, 3, 7] found.idx x).map id).Pairwise (· < ·)) :=
  bisearchRun_finds false (by decide) (by decide) (by decide) fun a => cmp_compares 5 a

end Sorted

end Search

/-! ### The searches of the server -/

/-- The loop compares the key with nothing outside its window. -/
theorem bisearchLoop_congr {f g : ℕ → Ordering} {first len : ℕ}
    (h : ∀ i < first + len, f i = g i) : bisearchLoop f first len = bisearchLoop g first len := by
  induction len using Nat.strongRecOn generalizing first with
  | ind len ih =>
    rw [bisearchLoop, bisearchLoop]
    split_ifs with hlen
    · dsimp only
      rw [h (first + len / 2) (by omega)]
      cases g (first + len / 2) with
      | eq => rfl
      | gt => exact ih _ (by omega) fun i hi => h i (by omega)
      | lt => exact ih _ (by omega) fun i hi => h i (by omega)
    · rfl

/-- `tuple_search` is a search of the live part of the array of pointers. -/
theorem bisearchRun_tupleSearch (ndebug : Bool) {s : TupleSpace} (key : Tuple)
    (hlen : s.live.length = s.poolnum) (hfit : s.poolnum * 8 < 18446744073709551616) :
    ∃ item, bisearchRun (fun p => tupleLookIft key (s.deref p)) s.live 8 ndebug = .ok item ∧
      tupleSearch s key = (item.datum.map s.slot, item.idx, s.countRead) := by
  refine ⟨_, bisearchRun_eq ndebug (by decide) (hlen ▸ hfit), tupleSearch_eq hlen.symm ?_⟩
  refine bisearchLoop_congr fun i hi => ?_
  have hi' : i < s.live.length := by omega
  rw [compareAt_eq hi', slot_eq_getElem_live hi']

/-- `edomain_search` is a search of the array of a list, whatever size its records have. -/
theorem bisearchRun_edomainSearch (ndebug : Bool) (key : List UInt8) (array : List EDomain)
    {size : ℕ} (hsize : 0 < size) (hfit : array.length * size < 18446744073709551616) :
    ∃ item, bisearchRun (fun e : EDomain => strcmp key e.text) array size ndebug = .ok item ∧
      edomainSearch key array = (item.datum, item.idx) := by
  refine ⟨_, bisearchRun_eq ndebug hsize hfit, ?_⟩
  have hsame : bisearch (fun i => strcmp key (array.getD i default).text) array.length =
      bisearch (compareAt (fun e : EDomain => strcmp key e.text) array) array.length := by
    refine bisearchLoop_congr fun i hi => ?_
    have hi' : i < array.length := by omega
    have hget : array.getD i default = array[i] := by simp [hi']
    rw [compareAt_eq hi', hget]
  rw [edomainSearch, hsame]

end XGrey
