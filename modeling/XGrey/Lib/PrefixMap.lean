import Mathlib.Data.List.Basic
import Mathlib.Logic.Function.Basic
import Mathlib.Order.Basic

/-!
# Prefix Maps and Binary Tries

A prefix map gives values to some finite words, and the value of a word under it is that
of its longest prefix that has one (`longest`). A binary trie stores such a map over bits:
a word is a path from the root, and whether the node at its end has a value is up to the
node (`BinTrie.rules`).

## Main results

* `longest_eq_some_iff`: the longest prefix with a value decides.
* `longest_cons`: how the search for it descends by one letter.
* `BinTrie.rules_modify`: changing the data of a node in a way that leaves its value alone
  leaves the map alone.
* `BinTrie.mem_entries`, `BinTrie.size_update`: the values of a trie, and their number.
-/

namespace PrefixMap

/-! ### Longest prefixes -/

section Longest

variable {α β : Type*}

/-- The value of the longest prefix of a word that has one. -/
def longest (rules : List α → Option β) : List α → Option β
  | [] => rules []
  | a :: w => (longest (fun q => rules (a :: q)) w).or (rules [])

@[simp] theorem longest_nil (rules : List α → Option β) : longest rules [] = rules [] := rfl

theorem longest_cons (rules : List α → Option β) (a : α) (w : List α) :
    longest rules (a :: w) = (longest (fun q => rules (a :: q)) w).or (rules []) := rfl

/-- A map without values below the first letter. -/
theorem longest_of_forall_none {rules : List α → Option β} (h : ∀ q, rules q = none)
    (w : List α) : longest rules w = none := by
  induction w generalizing rules with
  | nil => exact h []
  | cons a w ih => rw [longest_cons, ih fun q => h (a :: q), h []]; rfl

/-- No prefix has a value exactly when there is no longest one. -/
theorem longest_eq_none_iff {rules : List α → Option β} {w : List α} :
    longest rules w = none ↔ ∀ q, q <+: w → rules q = none := by
  induction w generalizing rules with
  | nil => simp
  | cons a w ih =>
      rw [longest_cons, Option.or_eq_none_iff, ih]
      constructor
      · rintro ⟨hlong, hnil⟩ q hq
        cases q with
        | nil => exact hnil
        | cons b q =>
            obtain ⟨rfl, hsub⟩ := List.cons_prefix_cons.mp hq
            exact hlong q hsub
      · intro h
        exact ⟨fun q hq => h _ (List.cons_prefix_cons.mpr ⟨rfl, hq⟩), h [] List.nil_prefix⟩

/-- **The longest prefix with a value decides.** -/
theorem longest_eq_some_iff {rules : List α → Option β} {w : List α} {v : β} :
    longest rules w = some v ↔
      ∃ q, q <+: w ∧ rules q = some v ∧
        ∀ q', q' <+: w → q.length < q'.length → rules q' = none := by
  induction w generalizing rules with
  | nil =>
      constructor
      · intro h
        refine ⟨[], List.prefix_rfl, h, fun q' hq' hlt => ?_⟩
        rw [List.prefix_nil.mp hq'] at hlt
        exact absurd hlt (Nat.lt_irrefl _)
      · rintro ⟨q, hq, hv, -⟩
        rwa [List.prefix_nil.mp hq] at hv
  | cons a w ih =>
      rw [longest_cons, Option.or_eq_some_iff, ih, longest_eq_none_iff]
      constructor
      · rintro (⟨q, hq, hv, hmax⟩ | ⟨hnone, hv⟩)
        · refine ⟨a :: q, List.cons_prefix_cons.mpr ⟨rfl, hq⟩, hv, fun q' hq' hlt => ?_⟩
          cases q' with
          | nil => exact absurd hlt (Nat.not_lt_zero _)
          | cons b q' =>
              obtain ⟨rfl, hsub⟩ := List.cons_prefix_cons.mp hq'
              exact hmax q' hsub (by simpa using hlt)
        · refine ⟨[], List.nil_prefix, hv, fun q' hq' hlt => ?_⟩
          cases q' with
          | nil => exact absurd hlt (Nat.lt_irrefl _)
          | cons b q' =>
              obtain ⟨rfl, hsub⟩ := List.cons_prefix_cons.mp hq'
              exact hnone q' hsub
      · rintro ⟨q, hq, hv, hmax⟩
        cases q with
        | nil =>
            refine Or.inr ⟨fun q' hq' => ?_, hv⟩
            exact hmax (a :: q') (List.cons_prefix_cons.mpr ⟨rfl, hq'⟩) (by simp)
        | cons b q =>
            obtain ⟨rfl, hsub⟩ := List.cons_prefix_cons.mp hq
            refine Or.inl ⟨q, hsub, hv, fun q' hq' hlt => ?_⟩
            exact hmax (b :: q') (List.cons_prefix_cons.mpr ⟨rfl, hq'⟩) (by simpa using hlt)

end Longest

/-! ### Binary tries -/

/-- A binary trie with data at its nodes. -/
inductive BinTrie (α : Type*)
  | nil
  | node (a : α) (zero one : BinTrie α)
  deriving DecidableEq

namespace BinTrie

variable {α β : Type*}

/-- Whether there is no node. -/
def isNil : BinTrie α → Bool
  | .nil => true
  | .node _ _ _ => false

/-- The data of the node at the end of a path. -/
def get? : BinTrie α → List Bool → Option α
  | .nil, _ => none
  | .node a _ _, [] => some a
  | .node _ zero _, false :: q => zero.get? q
  | .node _ _ one, true :: q => one.get? q

/-- Change the data of the node at the end of a path. -/
def modify (f : α → α) : BinTrie α → List Bool → BinTrie α
  | .nil, _ => .nil
  | .node a zero one, [] => .node (f a) zero one
  | .node a zero one, false :: q => .node a (zero.modify f q) one
  | .node a zero one, true :: q => .node a zero (one.modify f q)

/-- The prefix map that a trie stores, where `val` says which value a node has. -/
def rules (val : α → Option β) (t : BinTrie α) (q : List Bool) : Option β :=
  (t.get? q).bind val

/-- The number of nodes on the longest path. -/
def height : BinTrie α → ℕ
  | .nil => 0
  | .node _ zero one => max zero.height one.height + 1

@[simp] theorem get?_nil (q : List Bool) : (nil : BinTrie α).get? q = none := by
  cases q <;> rfl

@[simp] theorem rules_nil (val : α → Option β) (q : List Bool) :
    (nil : BinTrie α).rules val q = none := by
  simp [rules]

@[simp] theorem rules_node_nil (val : α → Option β) (a : α) (zero one : BinTrie α) :
    (node a zero one).rules val [] = val a := rfl

@[simp] theorem rules_node_false (val : α → Option β) (a : α) (zero one : BinTrie α)
    (q : List Bool) : (node a zero one).rules val (false :: q) = zero.rules val q := rfl

@[simp] theorem rules_node_true (val : α → Option β) (a : α) (zero one : BinTrie α)
    (q : List Bool) : (node a zero one).rules val (true :: q) = one.rules val q := rfl

/-- Changing the data of a node without changing its value does not change the map. -/
theorem rules_modify (val : α → Option β) {f : α → α} (hf : ∀ a, val (f a) = val a)
    (t : BinTrie α) (p : List Bool) : (t.modify f p).rules val = t.rules val := by
  induction t generalizing p with
  | nil => rfl
  | node a zero one ihz iho =>
      funext q
      match p, q with
      | [], [] => exact hf a
      | [], false :: q => rfl
      | [], true :: q => rfl
      | false :: p, [] => rfl
      | true :: p, [] => rfl
      | false :: p, false :: q => exact congrFun (ihz p) q
      | false :: p, true :: q => rfl
      | true :: p, false :: q => rfl
      | true :: p, true :: q => exact congrFun (iho p) q

/-- The node at the end of a path after the data of one was changed. -/
theorem get?_modify (f : α → α) (t : BinTrie α) (p q : List Bool) :
    (t.modify f p).get? q = if q = p then (t.get? q).map f else t.get? q := by
  induction t generalizing p q with
  | nil => simp [modify]
  | node a zero one ihz iho =>
      match p, q with
      | [], [] => rfl
      | [], false :: q => rfl
      | [], true :: q => rfl
      | false :: p, [] => rfl
      | true :: p, [] => rfl
      | false :: p, false :: q => simpa [modify, get?] using ihz p q
      | false :: p, true :: q => simp [modify, get?]
      | true :: p, false :: q => simp [modify, get?]
      | true :: p, true :: q => simpa [modify, get?] using iho p q

@[simp] theorem height_modify (f : α → α) (t : BinTrie α) (p : List Bool) :
    (t.modify f p).height = t.height := by
  induction t generalizing p with
  | nil => rfl
  | node a zero one ihz iho =>
      match p with
      | [] => rfl
      | false :: p => simp [modify, height, ihz p]
      | true :: p => simp [modify, height, iho p]

/-- A path to a node is shorter than the trie is high. -/
theorem length_lt_height {t : BinTrie α} {q : List Bool} {a : α} (h : t.get? q = some a) :
    q.length < t.height := by
  induction t generalizing q with
  | nil =>
      rw [get?_nil] at h
      cases h
  | node b zero one ihz iho =>
      rw [height]
      rcases q with _ | ⟨c, q⟩
      · exact Nat.succ_pos _
      · cases c with
        | false => exact Nat.succ_lt_succ (Nat.lt_of_lt_of_le (ihz h) (Nat.le_max_left _ _))
        | true => exact Nat.succ_lt_succ (Nat.lt_of_lt_of_le (iho h) (Nat.le_max_right _ _))

/-! #### The values of a trie -/

/-- A child of a node; where there is no node there is none. -/
def child : BinTrie α → Bool → BinTrie α
  | .nil, _ => .nil
  | .node _ zero _, false => zero
  | .node _ _ one, true => one

/-- The nodes that have a value, children first, with their paths below a path. -/
def entries (val : α → Option β) : BinTrie α → List Bool → List (List Bool × α)
  | .nil, _ => []
  | .node a zero one, p =>
      zero.entries val (p ++ [false]) ++ (one.entries val (p ++ [true]) ++
        if (val a).isSome then [(p, a)] else [])

/-- The number of nodes that have a value. -/
def size (val : α → Option β) : BinTrie α → ℕ
  | .nil => 0
  | .node a zero one => (val a).isSome.toNat + zero.size val + one.size val

variable {val : α → Option β}

theorem rules_cons (t : BinTrie α) (b : Bool) (q : List Bool) :
    t.rules val (b :: q) = (t.child b).rules val q := by
  cases t with
  | nil => rw [child, rules_nil, rules_nil]
  | node a zero one => cases b <;> rfl

theorem size_eq (t : BinTrie α) :
    t.size val =
      (t.rules val []).isSome.toNat + (t.child false).size val + (t.child true).size val := by
  cases t with
  | nil => simp [size, child]
  | node a zero one => rfl

theorem length_entries (t : BinTrie α) (p : List Bool) :
    (t.entries val p).length = t.size val := by
  induction t generalizing p with
  | nil => rfl
  | node a zero one ihz iho =>
      have hself : (if (val a).isSome then [(p, a)] else []).length = (val a).isSome.toNat := by
        cases (val a).isSome <;> rfl
      rw [entries, List.length_append, List.length_append, ihz, iho, hself, size]
      omega

/-- The entries are the values of the trie. -/
theorem mem_entries {t : BinTrie α} {p r : List Bool} {a : α} :
    (r, a) ∈ t.entries val p ↔ ∃ q, r = p ++ q ∧ t.get? q = some a ∧ (val a).isSome := by
  induction t generalizing p with
  | nil => simp [entries]
  | node b zero one ihz iho =>
      rw [entries, List.mem_append, List.mem_append, ihz, iho]
      constructor
      · rintro (⟨q, hr, hq, ha⟩ | ⟨q, hr, hq, ha⟩ | h)
        · exact ⟨false :: q, by rw [hr, List.append_assoc]; rfl, hq, ha⟩
        · exact ⟨true :: q, by rw [hr, List.append_assoc]; rfl, hq, ha⟩
        · split_ifs at h with hb
          · cases List.mem_singleton.mp h
            exact ⟨[], (List.append_nil _).symm, rfl, hb⟩
          · cases h
      · rintro ⟨q, hr, hq, ha⟩
        rcases q with _ | ⟨c, q⟩
        · cases hq
          refine Or.inr (Or.inr ?_)
          rw [if_pos ha, hr, List.append_nil]
          exact List.mem_singleton_self _
        · cases c with
          | false => exact Or.inl ⟨q, by rw [hr, List.append_assoc]; rfl, hq, ha⟩
          | true => exact Or.inr (Or.inl ⟨q, by rw [hr, List.append_assoc]; rfl, hq, ha⟩)

/-- The paths of the entries begin with the one that they are below. -/
theorem prefix_of_mem_entries {t : BinTrie α} {p r : List Bool}
    (h : r ∈ (t.entries val p).map Prod.fst) : p <+: r := by
  obtain ⟨⟨r', a⟩, he, rfl⟩ := List.mem_map.mp h
  obtain ⟨q, rfl, -, -⟩ := mem_entries.mp he
  exact List.prefix_append p q

/-- No path starts with one bit and with the other. -/
theorem not_prefix_both {p r : List Bool} (h : p ++ [false] <+: r) : ¬ p ++ [true] <+: r := by
  intro h'
  have heq := List.prefix_of_prefix_length_le h h' (by simp)
  have hsame := heq.eq_of_length (by simp)
  simp at hsame

/-- **No path is listed twice.** -/
theorem nodup_entries (t : BinTrie α) (p : List Bool) :
    ((t.entries val p).map Prod.fst).Nodup := by
  induction t generalizing p with
  | nil => exact List.nodup_nil
  | node a zero one ihz iho =>
      rw [entries, List.map_append, List.map_append]
      have hself : ∀ r ∈ (if (val a).isSome then [(p, a)] else []).map Prod.fst, r = p := by
        intro r hr
        split_ifs at hr
        · exact List.mem_singleton.mp hr
        · cases hr
      have hbelow : ∀ (c : BinTrie α) (b : Bool),
          p ∉ (c.entries val (p ++ [b])).map Prod.fst := by
        intro c b hmem
        have hle := (prefix_of_mem_entries hmem).length_le
        rw [List.length_append, List.length_singleton] at hle
        omega
      refine List.nodup_append.mpr ⟨ihz _, List.nodup_append.mpr ⟨iho _, ?_, ?_⟩, ?_⟩
      · split_ifs <;> simp
      · intro r hone r' hr' heq
        rw [heq, hself r' hr'] at hone
        exact hbelow one true hone
      · intro r hzero r' hr' heq
        rcases List.mem_append.mp hr' with hone | hr'
        · rw [← heq] at hone
          exact not_prefix_both (prefix_of_mem_entries hzero) (prefix_of_mem_entries hone)
        · rw [heq, hself r' hr'] at hzero
          exact hbelow zero false hzero

theorem size_eq_zero {t : BinTrie α} (h : ∀ q, t.rules val q = none) : t.size val = 0 := by
  induction t with
  | nil => rfl
  | node a zero one ihz iho =>
      have ha : val a = none := h []
      rw [size, ha, ihz fun q => h (false :: q), iho fun q => h (true :: q)]
      rfl

/-- Tries of the same map have the same number of values. -/
theorem size_congr {t t' : BinTrie α} (h : t.rules val = t'.rules val) :
    t.size val = t'.size val := by
  induction t generalizing t' with
  | nil =>
      refine (size_eq_zero fun q => ?_).symm
      rw [← h, rules_nil]
  | node a zero one ihz iho =>
      have hchild : ∀ b, ((node a zero one).child b).rules val = (t'.child b).rules val := by
        intro b
        funext q
        rw [← rules_cons, ← rules_cons, h]
      rw [size_eq (node a zero one), size_eq t', h]
      exact congrArg₂ (· + ·) (congrArg _ (ihz (hchild false))) (iho (hchild true))

/-- **A change at one path** changes the number of values by what changes there. -/
theorem size_update {t t' : BinTrie α} {p : List Bool} {v : Option β}
    (h : t'.rules val = Function.update (t.rules val) p v) :
    t'.size val + (t.rules val p).isSome.toNat = t.size val + v.isSome.toNat := by
  induction p generalizing t t' with
  | nil =>
      have hroot : t'.rules val [] = v := by rw [h, Function.update_self]
      have hchild : ∀ b, (t'.child b).size val = (t.child b).size val := by
        intro b
        refine size_congr (funext fun q => ?_)
        rw [← rules_cons, ← rules_cons, h, Function.update_of_ne (List.cons_ne_nil b q)]
      rw [size_eq t', size_eq t, hroot, hchild, hchild]
      omega
  | cons b p ih =>
      have hroot : t'.rules val [] = t.rules val [] := by
        rw [h, Function.update_of_ne (List.cons_ne_nil b p).symm]
      have hsame : (t'.child b).rules val = Function.update ((t.child b).rules val) p v := by
        funext q
        rw [← rules_cons, h]
        by_cases hq : q = p
        · rw [hq, Function.update_self, Function.update_self]
        · rw [Function.update_of_ne hq, Function.update_of_ne (fun heq => hq (List.cons.inj heq).2),
            rules_cons]
      have hother : (t'.child (!b)).size val = (t.child (!b)).size val := by
        refine size_congr (funext fun q => ?_)
        rw [← rules_cons, ← rules_cons, h, Function.update_of_ne]
        intro heq
        cases b <;> cases (List.cons.inj heq).1
      have hsize := ih hsame
      rw [size_eq t', size_eq t, hroot, rules_cons]
      cases b <;> simp only [Bool.not_false, Bool.not_true] at hother <;> omega

end BinTrie

end PrefixMap
