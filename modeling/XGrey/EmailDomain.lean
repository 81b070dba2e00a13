import XGrey.Bisearch
import XGrey.Text

/-!
# The Address Lists

The four lists of rules for sender and recipient addresses and their domains
(`server/emaildomain.c`). Each is an array of texts with a command and a count, sorted by
text, with a default for texts that are not in it. The source repeats the operations for
every list; here they are written once, over the list they work on, and the server gives
each list its name.

## Main results

* `edomainSearch_spec`: on a sorted list the search finds the entry with the text if there
  is one.
* `edomainAdd_eq`, `edomainRemove_eq`: insertion and deletion at an index.
-/

open CRuntime Lexicographic SortedSeq ArrayShift

namespace XGrey

/-- `struct emaildomain`; its length field is never read. -/
structure EDomain where
  text : List UInt8
  count : ℕ
  cmd : ℤ
  deriving DecidableEq, Inhabited

/-- One of the address lists with its default and its counters. -/
structure AddrList where
  /-- `g_from` and its like, the first `g_sfrom` elements -/
  entries : List EDomain
  /-- `g_smaxfrom` and its like: the allocated length -/
  smax : ℕ
  /-- `g_deffrom` and its like -/
  dflt : ℤ
  /-- `g_fromc` and its like: how often the default was used -/
  dfltc : ℕ
  /-- `g_from_cmdcnt` and its like, one counter for each verdict -/
  cmdcnt : List ℕ
  deriving DecidableEq

/-- An address list at the start. -/
def AddrList.init : AddrList where
  entries := []
  smax := 0
  dflt := Ift.greylist
  dfltc := 0
  cmdcnt := [0, 0, 0]

/-- `ED_DELTA` -/
def edDelta : ℕ := 100

/-- `edomain_search`: the index of the entry with a text, and the index at which the
search ended. -/
def edomainSearch (key : List UInt8) (array : List EDomain) : Option ℕ × ℕ :=
  let item := bisearch (fun i => strcmp key (array.getD i default).text) array.length
  (item.datum, item.idx)

/-- `edomain_add_from` and its like. An index beyond the end makes the length of the block
move wrap around. -/
def edomainAdd (ndebug : Bool) (l : AddrList) (rec : EDomain) (index : ℕ) :
    Exec AddrList := do
  cassert ndebug (index ≤ l.entries.length)
  let smax := if l.entries.length = l.smax then l.smax + edDelta else l.smax
  if l.entries.length < index then .error .wrap
  else if l.entries.length < smax then do
    let array ← memmove (l.entries ++ [default]) (index + 1) index (l.entries.length - index)
    .ok { l with entries := array.set index rec, smax := smax }
  else
    .error .memory

/-- `edomain_remove_from` and its like. -/
def edomainRemove (ndebug : Bool) (l : AddrList) (index : ℕ) : Exec AddrList := do
  cassert ndebug (index ≤ l.entries.length)
  if l.entries.length = 0 then .ok l
  else if index < l.entries.length then
    .ok { l with entries := deleteAt l.entries index }
  else
    .error .memory

/-! ### Specification -/

/-- The texts of a list, in the order of the array. -/
def texts (array : List EDomain) : List (List UInt8) := array.map EDomain.text

/-- The entry with a text, if there is one. -/
def findText (array : List EDomain) (text : List UInt8) : Option EDomain :=
  array.find? fun e => e.text = text

/-- **The search** on a sorted list. -/
theorem edomainSearch_spec {array : List EDomain} (hs : (texts array).Pairwise (· < ·))
    (key : List UInt8) :
    (∃ i, ∃ h : i < array.length, edomainSearch key array = (some i, i) ∧
        array[i].text = key) ∨
      ∃ idx, edomainSearch key array = (none, idx) ∧ SplitsAt key (texts array) idx := by
  have hlen : (texts array).length = array.length := List.length_map _
  have hcmp : ∀ i (h : i < (texts array).length),
      (strcmp key (array.getD i default).text).Compares key (texts array)[i] := by
    intro i h
    have hi : i < array.length := hlen ▸ h
    have hget : (texts array)[i] = (array.getD i default).text := by
      simp [texts, hi]
    rw [hget]
    exact strcmp_compares key _
  rcases bisearch_spec hs hcmp with ⟨i, hi, hfound, htext⟩ | ⟨idx, hmiss, hsplit⟩
  · refine Or.inl ⟨i, hlen ▸ hi, ?_, ?_⟩
    · rw [edomainSearch, ← hlen, hfound]
    · simpa [texts] using htext
  · exact Or.inr ⟨idx, by rw [edomainSearch, ← hlen, hmiss], hsplit⟩

/-- In a sorted list the entry with a text is the one that the search finds. -/
theorem findText_eq {array : List EDomain} (hs : (texts array).Pairwise (· < ·))
    (key : List UInt8) :
    findText array key = (edomainSearch key array).1.bind fun i => array[i]? := by
  rcases edomainSearch_spec hs key with ⟨i, hi, hsearch, htext⟩ | ⟨idx, hsearch, hsplit⟩
  · rw [hsearch]
    change _ = array[i]?
    rw [List.getElem?_eq_getElem hi, findText, List.find?_eq_some_iff_getElem]
    refine ⟨by simpa using htext, i, hi, rfl, fun j hj => ?_⟩
    have hlen : (texts array).length = array.length := List.length_map ..
    have hlt := List.pairwise_iff_getElem.mp hs j i (by omega) (by omega) hj
    simp only [texts, List.getElem_map, htext] at hlt
    simpa using ne_of_lt hlt
  · rw [hsearch]
    change _ = none
    rw [findText, List.find?_eq_none]
    intro e he
    have hnot := hsplit.notMem
    simp only [decide_eq_true_eq]
    rintro rfl
    exact hnot (List.mem_map_of_mem he)

/-- Whatever the order of the list, an index that is found is one of the list and has the
text, and the index of a failed search lies in the list or at its end. -/
theorem edomainSearch_bounds (key : List UInt8) (array : List EDomain) :
    (edomainSearch key array).2 ≤ array.length ∧
      ∀ i, (edomainSearch key array).1 = some i →
        (edomainSearch key array).2 = i ∧ ∃ h : i < array.length, array[i].text = key := by
  obtain ⟨hidx, hdatum⟩ := bisearchLoop_bounds
    (fun i => strcmp key (array.getD i default).text) 0 array.length
  refine ⟨hidx.trans_eq (Nat.zero_add _), fun i hi => ?_⟩
  obtain ⟨hidx', hlt, heq⟩ := hdatum i hi
  have hlt' : i < array.length := by omega
  have hkey : key = (array.getD i default).text := (strcmp_compares _ _).eq_eq.mp heq
  refine ⟨hidx', hlt', ?_⟩
  have hget : array.getD i default = array[i] := by simp [hlt']
  rw [← hget]
  exact hkey.symm

/-- The search in an empty list. -/
theorem edomainSearch_nil (key : List UInt8) : edomainSearch key [] = (none, 0) := by
  obtain ⟨hle, hfound⟩ := edomainSearch_bounds key []
  refine Prod.ext ?_ (Nat.le_zero.mp hle)
  refine Option.eq_none_iff_forall_ne_some.mpr fun i hi => ?_
  obtain ⟨-, hlt, -⟩ := hfound i hi
  exact absurd hlt (Nat.not_lt_zero i)

/-- **Insertion** at an index of the list or at its end, when the list lies inside its
allocated length. -/
theorem edomainAdd_eq {ndebug : Bool} {l : AddrList} (hmax : l.entries.length ≤ l.smax)
    (rec : EDomain) {index : ℕ} (h : index ≤ l.entries.length) :
    edomainAdd ndebug l rec index =
      .ok { l with
        entries := insertAt l.entries index rec
        smax := if l.entries.length = l.smax then l.smax + edDelta else l.smax } := by
  have hroom : l.entries.length <
      if l.entries.length = l.smax then l.smax + edDelta else l.smax := by
    rw [edDelta]
    split_ifs <;> omega
  obtain ⟨a, hmove, hset⟩ := memmove_insertAt l.entries [] default rec h
  rw [edomainAdd, cassert_of h, ok_bind]
  dsimp only
  rw [if_neg (by omega), if_pos hroom, hmove, ok_bind, hset, List.append_nil]

/-- **Deletion** at an index of the list. -/
theorem edomainRemove_eq {ndebug : Bool} {l : AddrList} {index : ℕ}
    (h : index < l.entries.length) :
    edomainRemove ndebug l index =
      .ok { l with entries := deleteAt l.entries index } := by
  rw [edomainRemove, cassert_of (le_of_lt h), ok_bind, if_neg (by omega), if_pos h]

/-! ### The invariant of a list -/

/-- An address list is in order: sorted, inside its allocated length, and with one counter
for each verdict. -/
structure AddrListOk (l : AddrList) : Prop where
  sorted : (texts l.entries).Pairwise (· < ·)
  length_le : l.entries.length ≤ l.smax
  length_cmdcnt : l.cmdcnt.length = 3

theorem addrListOk_init : AddrListOk AddrList.init :=
  ⟨List.Pairwise.nil, Nat.le_refl _, rfl⟩

end XGrey
