import Mathlib.Data.List.Basic

/-!
# Text Files

What a loop over `getline` reads of a text file: lines that each end in the newline, but
for the last one, which may lack it (`getlines`). A text that is written line by line is
read back line by line (`getlines_line`, `getlines_flatMap`).
-/

namespace TextFile

variable {α : Type*} [DecidableEq α] (nl : α)

/-- The lines of a text, with the newline at their ends. -/
def getlines : List α → List (List α)
  | [] => []
  | c :: text =>
      if c = nl then [c] :: getlines text
      else
        match getlines text with
        | [] => [[c]]
        | line :: lines => (c :: line) :: lines

/-- Every line but the last ends in a newline. -/
def Terminated : List (List α) → Prop
  | [] => True
  | line :: lines => (lines = [] ∨ line.getLast? = some nl) ∧ Terminated lines

variable {nl}

/-- **What is read** are lines that are terminated, the last one perhaps not. -/
theorem terminated_getlines (text : List α) : Terminated nl (getlines nl text) := by
  induction text with
  | nil => trivial
  | cons c text ih =>
      rw [getlines]
      by_cases hc : c = nl
      · rw [if_pos hc]
        exact ⟨Or.inr (congrArg some hc), ih⟩
      · rw [if_neg hc]
        cases hlines : getlines nl text with
        | nil => exact ⟨Or.inl rfl, trivial⟩
        | cons line lines =>
            rw [hlines] at ih
            obtain ⟨hlast, hrest⟩ := ih
            refine ⟨hlast.imp_right fun h => ?_, hrest⟩
            cases line with
            | nil => cases h
            | cons b line => exact (List.getLast?_cons_cons).trans h

/-- A line that is read has no newline but perhaps the one at its end. -/
theorem exists_of_mem_getlines {text line : List α} (h : line ∈ getlines nl text) :
    ∃ body, nl ∉ body ∧ (line = body ∨ line = body ++ [nl]) := by
  induction text generalizing line with
  | nil => cases h
  | cons c text ih =>
      rw [getlines] at h
      by_cases hc : c = nl
      · rw [if_pos hc, List.mem_cons] at h
        rcases h with rfl | h
        · exact ⟨[], List.not_mem_nil, Or.inr (congrArg (fun c => [c]) hc)⟩
        · exact ih h
      · rw [if_neg hc] at h
        cases hlines : getlines nl text with
        | nil =>
            rw [hlines, List.mem_singleton] at h
            exact ⟨[c], fun hmem => hc (List.mem_singleton.mp hmem).symm, Or.inl h⟩
        | cons first lines =>
            rw [hlines] at h ih
            rcases List.mem_cons.mp h with rfl | h
            · obtain ⟨body, hbody, hline⟩ := ih List.mem_cons_self
              refine ⟨c :: body, ?_, ?_⟩
              · rw [List.mem_cons, not_or]
                exact ⟨fun heq => hc heq.symm, hbody⟩
              · exact hline.imp (congrArg (c :: ·)) (congrArg (c :: ·))
            · exact ih (List.mem_cons_of_mem first h)

/-- A line that was written with its newline is the first that is read. -/
theorem getlines_line {line : List α} (hline : nl ∉ line) (text : List α) :
    getlines nl (line ++ nl :: text) = (line ++ [nl]) :: getlines nl text := by
  induction line with
  | nil => rw [List.nil_append, getlines, if_pos rfl, List.nil_append]
  | cons c line ih =>
      obtain ⟨hc, hrest⟩ := not_or.mp (mt List.mem_cons.mpr hline)
      rw [List.cons_append, getlines, if_neg (Ne.symm hc), ih hrest]
      rfl

/-- A text without a newline is one line, if it is not empty. -/
theorem getlines_of_notMem {text : List α} (h : nl ∉ text) :
    getlines nl text = if text = [] then [] else [text] := by
  induction text with
  | nil => rfl
  | cons c text ih =>
      obtain ⟨hc, hrest⟩ := not_or.mp (mt List.mem_cons.mpr h)
      rw [getlines, if_neg (Ne.symm hc), ih hrest, if_neg (List.cons_ne_nil c text)]
      split_ifs with hnil
      · rw [hnil]
      · rfl

/-- **A text written line by line** is read line by line. -/
theorem getlines_flatMap {β : Type*} {f : β → List α} {l : List β} (hf : ∀ b ∈ l, nl ∉ f b)
    (text : List α) :
    getlines nl ((l.flatMap fun b => f b ++ [nl]) ++ text) =
      (l.map fun b => f b ++ [nl]) ++ getlines nl text := by
  induction l with
  | nil => rfl
  | cons b l ih =>
      obtain ⟨hb, hl⟩ := List.forall_mem_cons.mp hf
      rw [List.flatMap_cons, List.append_assoc, List.append_assoc, List.singleton_append,
        getlines_line hb, ih hl, List.map_cons, List.cons_append]

end TextFile
