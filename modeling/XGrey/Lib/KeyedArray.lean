import Mathlib.Data.List.Nodup
import Mathlib.Logic.Function.Basic
import XGrey.Lib.ArrayShift

/-!
# Arrays of Records with Distinct Keys

An array of records, no two with the same key, is a finite map from keys to records
(`lookup`). Inserting a record, deleting one and overwriting one in place are updates of
that map at one key. Nothing here depends on an order of the keys; an array that is kept
sorted has distinct keys.
-/

namespace KeyedArray

open ArrayShift

variable {α K : Type*} [DecidableEq K] {key : α → K} {l : List α}

/-- The record with a key, if there is one. -/
def lookup (key : α → K) (l : List α) (k : K) : Option α := l.find? fun a => key a = k

@[simp] theorem lookup_nil (key : α → K) (k : K) : lookup key [] k = none := rfl

/-- A record that is found is in the array and has the key. -/
theorem mem_of_lookup {k : K} {a : α} (h : lookup key l k = some a) : a ∈ l ∧ key a = k :=
  ⟨List.mem_of_find?_eq_some h, by simpa using List.find?_some h⟩

/-- With distinct keys every record of the array is found. -/
theorem lookup_eq_some_iff (hl : (l.map key).Nodup) {k : K} {a : α} :
    lookup key l k = some a ↔ a ∈ l ∧ key a = k := by
  refine ⟨mem_of_lookup, ?_⟩
  rintro ⟨ha, rfl⟩
  cases hfound : lookup key l (key a) with
  | none =>
      have hnone := List.find?_eq_none.mp hfound a ha
      simp at hnone
  | some b =>
      obtain ⟨hb, hkey⟩ := mem_of_lookup hfound
      rw [List.inj_on_of_nodup_map hl hb ha hkey]

/-- Exactly the keys of the array are found. -/
theorem lookup_eq_none_iff {k : K} : lookup key l k = none ↔ k ∉ l.map key := by
  rw [lookup, List.find?_eq_none, List.mem_map]
  simp only [decide_eq_true_eq, not_exists, not_and]

/-- Two arrays whose records are the same but for those with one key. -/
theorem lookup_eq_update {l' : List α} (hl : (l.map key).Nodup) (hl' : (l'.map key).Nodup)
    {k : K} {r : Option α}
    (hmem : ∀ a, a ∈ l' ↔ r = some a ∧ key a = k ∨ a ∈ l ∧ key a ≠ k)
    (hr : ∀ a, r = some a → key a = k) :
    lookup key l' = Function.update (lookup key l) k r := by
  funext k'
  refine Option.ext fun a => ?_
  rw [lookup_eq_some_iff hl', hmem]
  by_cases hk : k' = k
  · rw [hk, Function.update_self]
    constructor
    · rintro ⟨⟨ha, -⟩ | ⟨-, hne⟩, hkey⟩
      · exact ha
      · exact absurd hkey hne
    · intro ha
      exact ⟨Or.inl ⟨ha, hr a ha⟩, hr a ha⟩
  · rw [Function.update_of_ne hk, lookup_eq_some_iff hl]
    constructor
    · rintro ⟨⟨-, ha⟩ | ⟨ha, -⟩, hkey⟩
      · exact absurd (hkey.symm.trans ha) hk
      · exact ⟨ha, hkey⟩
    · rintro ⟨ha, hkey⟩
      exact ⟨Or.inr ⟨ha, fun h => hk (hkey.symm.trans h)⟩, hkey⟩

/-- **Insertion** of a record with a new key. -/
theorem lookup_insertAt (hl : (l.map key).Nodup) {a : α} (ha : key a ∉ l.map key) (idx : ℕ) :
    lookup key (insertAt l idx a) = Function.update (lookup key l) (key a) (some a) := by
  have hperm : ((insertAt l idx a).map key).Perm (key a :: l.map key) :=
    (insertAt_perm l idx a).map key
  refine lookup_eq_update hl (hperm.nodup_iff.mpr (List.nodup_cons.mpr ⟨ha, hl⟩)) ?_ ?_
  · intro b
    rw [mem_insertAt]
    constructor
    · rintro (rfl | hb)
      · exact Or.inl ⟨rfl, rfl⟩
      · exact Or.inr ⟨hb, fun h => ha (h ▸ List.mem_map_of_mem hb)⟩
    · rintro (⟨hb, -⟩ | ⟨hb, -⟩)
      · exact Or.inl (Option.some.inj hb).symm
      · exact Or.inr hb
  · intro b hb
    rw [Option.some.inj hb]

/-- **Overwriting** a record by one with the same key. -/
theorem lookup_set (hl : (l.map key).Nodup) {i : ℕ} (hi : i < l.length) {a : α}
    (ha : key a = key l[i]) :
    lookup key (l.set i a) = Function.update (lookup key l) (key a) (some a) := by
  have hkeys : (l.set i a).map key = l.map key := by
    rw [List.map_set, ha, ← List.getElem_map key (h := by simpa using hi),
      List.set_getElem_self]
  refine lookup_eq_update hl (hkeys ▸ hl) ?_ ?_
  · intro b
    rw [List.mem_iff_getElem]
    constructor
    · rintro ⟨j, hj, rfl⟩
      rw [List.length_set] at hj
      rw [List.getElem_set]
      by_cases hij : i = j
      · rw [if_pos hij]
        exact Or.inl ⟨rfl, rfl⟩
      · rw [if_neg hij]
        refine Or.inr ⟨List.getElem_mem hj, fun hkey => hij ?_⟩
        have hinj := List.inj_on_of_nodup_map hl (List.getElem_mem hi) (List.getElem_mem hj)
          (ha.symm.trans hkey.symm)
        exact (List.Nodup.getElem_inj_iff (List.Nodup.of_map key hl)).mp hinj
    · rintro (⟨hb, -⟩ | ⟨hb, hkey⟩)
      · exact ⟨i, by rwa [List.length_set], by rw [List.getElem_set_self, Option.some.inj hb]⟩
      · obtain ⟨j, hj, rfl⟩ := List.mem_iff_getElem.mp hb
        have hij : i ≠ j := by
          rintro rfl
          exact hkey ha.symm
        exact ⟨j, by rwa [List.length_set], List.getElem_set_of_ne hij _ _⟩
  · intro b hb
    rw [Option.some.inj hb]

/-- **Deletion** of a record. -/
theorem lookup_deleteAt (hl : (l.map key).Nodup) {i : ℕ} (hi : i < l.length) :
    lookup key (deleteAt l i) = Function.update (lookup key l) (key l[i]) none := by
  have hdel : ((deleteAt l i).map key).Nodup :=
    hl.sublist ((deleteAt_sublist l i).map key)
  have hsplit : (l.take i ++ l[i] :: l.drop (i + 1)) = l := by
    rw [← List.drop_eq_getElem_cons hi, List.take_append_drop]
  refine lookup_eq_update hl hdel ?_ fun b hb => by cases hb
  intro b
  have hmid : (l[i] :: (l.take i ++ l.drop (i + 1))).Perm l := by
    conv_rhs => rw [← hsplit]
    exact List.perm_middle.symm
  have hne : key l[i] ∉ (deleteAt l i).map key :=
    (List.nodup_cons.mp ((hmid.map key).nodup_iff.mpr hl)).1
  rw [← hmid.mem_iff, List.mem_cons, deleteAt]
  constructor
  · intro hb
    exact Or.inr ⟨Or.inr hb, fun hkey => hne (hkey ▸ List.mem_map_of_mem hb)⟩
  · rintro (⟨hb, -⟩ | ⟨rfl | hb, hkey⟩)
    · cases hb
    · exact absurd rfl hkey
    · exact hb

end KeyedArray
