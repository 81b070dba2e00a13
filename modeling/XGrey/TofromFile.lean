import XGrey.AddressLists

/-!
# Blank Lines in an Address File

`tofrom_read_stream` releases the array of the fields of a line at the beginning of the
next round of its loop. No array is made of a blank line or of a comment, and the variable
is not reset, so the round behind such a line releases the array of an earlier line once
more. There is such a round whenever the line ends in a newline, for only a line without one
makes `getline` meet the end of the file.

CGILib is not part of the sources. What matters here is that a text in which there is
something does not become blank when it is trimmed (`CgiLib.Trims`).

## Main results

* `tofromReadStream_of_good`, `tofromReadStream_of_skipped`: a file without such a line, and
  a file with one.
* `tofromReadStream_iff`: when a file is read to its end.
-/

open CRuntime TextFile

namespace XGrey

/-! ### Lines -/

/-- A line of which no fields are made: it is blank or a comment. -/
def Skipped (cgi : CgiLib) (linebuff : List UInt8) : Prop :=
  cgi.emptyString linebuff = true ∨ (cgi.trimSpace linebuff).head? = some 35

instance (cgi : CgiLib) : DecidablePred (Skipped cgi) :=
  fun linebuff => inferInstanceAs (Decidable
    (cgi.emptyString linebuff = true ∨ (cgi.trimSpace linebuff).head? = some 35))

/-- A text that is not blank is not blank when it is trimmed. -/
def CgiLib.Trims (cgi : CgiLib) : Prop :=
  ∀ s, cgi.emptyString s = false → ∃ c ∈ cgi.trimSpace s, isspace c = false

/-- Skipping white space skips nothing else. -/
theorem mem_dropWhile_isspace {s : List UInt8} {c : UInt8} (hc : c ∈ s)
    (hspace : isspace c = false) : c ∈ s.dropWhile isspace := by
  rw [← List.takeWhile_append_dropWhile (p := isspace) (l := s), List.mem_append] at hc
  refine hc.resolve_left fun hfront => ?_
  rw [List.mem_takeWhile_imp hfront] at hspace
  cases hspace

/-- Neither does trimming. -/
theorem mem_trimmed {s : List UInt8} {c : UInt8} (hc : c ∈ s) (hspace : isspace c = false) :
    c ∈ trimmed s := by
  have hfront := mem_dropWhile_isspace hc hspace
  rw [trimmed, List.rdropWhile, List.mem_reverse]
  exact mem_dropWhile_isspace (List.mem_reverse.mpr hfront) hspace

/-- A library that does what its functions are named for. -/
theorem CgiLib.Behaves.trims {cgi : CgiLib} (h : cgi.Behaves) : cgi.Trims := by
  intro s hs
  have hsome : ¬ ∀ c ∈ s, isspace c = true := by
    rw [← h.emptyString_iff, hs]
    exact Bool.false_ne_true
  push Not at hsome
  obtain ⟨c, hc, hspace⟩ := hsome
  rw [h.trimSpace_eq]
  exact ⟨c, mem_trimmed hc (Bool.eq_false_iff.mpr hspace), Bool.eq_false_iff.mpr hspace⟩

/-- A text with something in it has fields. -/
theorem split_of_mem {txt : List UInt8} {c : UInt8} (hc : c ∈ txt)
    (hspace : isspace c = false) : ∃ field fields, split txt = .ok (field :: fields) := by
  cases hloop : splitLoop txt with
  | cons field fields => exact ⟨field, fields, by rw [split, hloop]⟩
  | nil =>
      exfalso
      rw [splitLoop] at hloop
      split_ifs at hloop with hfirst
      have hdrop : txt.dropWhile isspace = [] := by
        cases hrest : txt.dropWhile isspace with
        | nil => rfl
        | cons d rest =>
            have hd := List.head?_dropWhile_not isspace txt
            rw [hrest] at hd hfirst
            rw [List.takeWhile_cons_of_pos (by simpa using hd)] at hfirst
            cases hfirst
      rw [List.dropWhile_eq_nil_iff.mp hdrop c hc] at hspace
      cases hspace

section Lines

variable {cgi : CgiLib} {linebuff : List UInt8}

/-- No fields are made of a blank line. -/
theorem tofromLine_of_skipped (h : Skipped cgi linebuff) :
    tofromLine cgi linebuff = .ok .blank := by
  rw [tofromLine]
  by_cases hempty : cgi.emptyString linebuff = true
  · rw [if_pos hempty]
  · rw [if_neg hempty]
    exact if_pos (h.resolve_left hempty)

/-- Any other line has fields. -/
theorem tofromLine_of_not_skipped (hcgi : cgi.Trims) (h : ¬ Skipped cgi linebuff) :
    ∃ line, tofromLine cgi linebuff = .ok line ∧ line ≠ .blank := by
  obtain ⟨hempty, hcomment⟩ := not_or.mp h
  obtain ⟨c, hc, hspace⟩ := hcgi linebuff (Bool.eq_false_iff.mpr hempty)
  obtain ⟨field, fields, hsplit⟩ := split_of_mem hc hspace
  rw [tofromLine, if_neg hempty]
  dsimp only
  rw [if_neg hcomment, hsplit, ok_bind]
  rcases fields with _ | ⟨name, _ | ⟨text, rest⟩⟩
  · exact ⟨.bad, rfl, TofromLine.noConfusion⟩
  · exact ⟨.bad, rfl, TofromLine.noConfusion⟩
  · dsimp only
    split_ifs
    · exact ⟨_, rfl, TofromLine.noConfusion⟩
    · exact ⟨_, rfl, TofromLine.noConfusion⟩

/-- **What a line with fields does** to a list is what it is for, which is nothing when
there are too few of them. -/
theorem tofromLine_implements (hcgi : cgi.Trims) (hline : ¬ Skipped cgi linebuff)
    (ndebug : Bool) {l : AddrList} {m : AddrMap} (h : Implements l m) :
    ∃ line l', tofromLine cgi linebuff = .ok line ∧ line ≠ .blank ∧
      tofromAdd ndebug l line = .ok l' ∧
      Implements l' ((lineEdit cgi linebuff).toList.foldl AddrMap.apply m) := by
  obtain ⟨line, heq, hblank⟩ := tofromLine_of_not_skipped hcgi hline
  cases hedit : lineEdit cgi linebuff with
  | some e =>
      obtain ⟨text, cmd, rfl, heq'⟩ := tofromLine_of_lineEdit hedit
      rw [heq'] at heq
      cases heq
      obtain ⟨l', hadd, hl'⟩ := @tofromAdd_implements l m h ndebug text cmd _ rfl
      exact ⟨_, l', heq', hblank, hadd, hl'⟩
  | none =>
      rw [lineEdit, heq] at hedit
      cases line with
      | blank => exact absurd rfl hblank
      | bad => exact ⟨.bad, l, heq, hblank, rfl, h⟩
      | dflt cmd => cases hedit
      | rule text cmd => cases hedit

end Lines

/-! ### Files -/

section Files

variable {cgi : CgiLib} {l : AddrList} {m : AddrMap} {lines : List (List UInt8)}

/-- **A file without a blank line** but perhaps at its end, where the newline is missing: the
lines change the list one after the other. -/
theorem tofromReadStream_of_good (hcgi : cgi.Trims) (ndebug : Bool) (h : Implements l m)
    (hterm : Terminated 10 lines)
    (hgood : ∀ line ∈ lines, Skipped cgi line → line.getLast? ≠ some 10) :
    ∃ l', tofromReadStream cgi ndebug l true lines = .ok l' ∧
      Implements l' ((lines.filterMap (lineEdit cgi)).foldl AddrMap.apply m) := by
  induction lines generalizing l m with
  | nil => exact ⟨l, rfl, h⟩
  | cons linebuff lines ih =>
      obtain ⟨hfirst, hrest⟩ := List.forall_mem_cons.mp hgood
      have hfold : ((linebuff :: lines).filterMap (lineEdit cgi)) =
          (lineEdit cgi linebuff).toList ++ lines.filterMap (lineEdit cgi) := by
        cases hedit : lineEdit cgi linebuff with
        | none => rw [List.filterMap_cons_none hedit]; rfl
        | some e => rw [List.filterMap_cons_some hedit]; rfl
      rw [tofromReadStream, if_pos rfl, hfold, List.foldl_append]
      by_cases hskip : Skipped cgi linebuff
      · have hnone : lineEdit cgi linebuff = none := by
          rw [lineEdit, tofromLine_of_skipped hskip]
        cases hterm.1.resolve_right (hfirst hskip)
        rw [tofromLine_of_skipped hskip, ok_bind, tofromAdd, ok_bind, if_neg (hfirst hskip),
          hnone]
        exact ⟨l, rfl, h⟩
      · obtain ⟨line, l₁, hline, hblank, hadd, hl₁⟩ :=
          tofromLine_implements hcgi hskip ndebug h
        rw [hline, ok_bind, hadd, ok_bind, decide_eq_true hblank]
        by_cases hnewline : linebuff.getLast? = some 10
        · rw [if_pos hnewline]
          exact ih hl₁ hterm.2 hrest
        · cases hterm.1.resolve_right hnewline
          rw [if_neg hnewline]
          exact ⟨l₁, rfl, hl₁⟩

/-- With nothing to release, the next round releases it. -/
theorem tofromReadStream_not_held (cgi : CgiLib) (ndebug : Bool) (l : AddrList)
    (lines : List (List UInt8)) :
    tofromReadStream cgi ndebug l false lines = .error .doubleFree := by
  cases lines <;> rfl

/-- **A file with a blank line** that ends in a newline: the array of the line before is
released twice. -/
theorem tofromReadStream_of_skipped (hcgi : cgi.Trims) (ndebug : Bool) (h : Implements l m)
    (hterm : Terminated 10 lines) {line : List UInt8} (hline : line ∈ lines)
    (hskip : Skipped cgi line) (hnewline : line.getLast? = some 10) :
    tofromReadStream cgi ndebug l true lines = .error .doubleFree := by
  induction lines generalizing l m with
  | nil => cases hline
  | cons linebuff lines ih =>
      rw [tofromReadStream, if_pos rfl]
      by_cases hfirst : Skipped cgi linebuff
      · have hlast : linebuff.getLast? = some 10 := by
          rcases hterm.1 with rfl | hlast
          · rwa [← List.mem_singleton.mp hline]
          · exact hlast
        rw [tofromLine_of_skipped hfirst, ok_bind, tofromAdd, ok_bind, if_pos hlast]
        exact tofromReadStream_not_held ..
      · have hrest : line ∈ lines := by
          refine (List.mem_cons.mp hline).resolve_left ?_
          rintro rfl
          exact hfirst hskip
        obtain ⟨tline, l₁, htline, hblank, hadd, hl₁⟩ :=
          tofromLine_implements hcgi hfirst ndebug h
        have hlast := hterm.1.resolve_left (List.ne_nil_of_mem hrest)
        rw [htline, ok_bind, hadd, ok_bind, decide_eq_true hblank, if_pos hlast]
        exact ih hl₁ hterm.2 hrest

end Files

/-- **When a file is read to its end.** Every array is released once, and the list is what
the rules and defaults of the file make of it, exactly when no blank line and no comment
ends in a newline. Otherwise an array is released twice. -/
theorem tofromReadStream_iff {cgi : CgiLib} (hcgi : cgi.Trims) (ndebug : Bool) {l : AddrList}
    {m : AddrMap} (h : Implements l m) (text : List UInt8) :
    ((∃ l', tofromReadStream cgi ndebug l true (getlines 10 text) = .ok l' ∧
        Implements l' (((getlines 10 text).filterMap (lineEdit cgi)).foldl AddrMap.apply m)) ↔
      ∀ line ∈ getlines 10 text, Skipped cgi line → line.getLast? ≠ some 10) ∧
    ((∃ line ∈ getlines 10 text, Skipped cgi line ∧ line.getLast? = some 10) →
      tofromReadStream cgi ndebug l true (getlines 10 text) = .error .doubleFree) := by
  have hterm : Terminated 10 (getlines 10 text) := terminated_getlines text
  refine ⟨⟨?_, tofromReadStream_of_good hcgi ndebug h hterm⟩, ?_⟩
  · rintro ⟨l', hread, -⟩ line hline hskip hnewline
    rw [tofromReadStream_of_skipped hcgi ndebug h hterm hline hskip hnewline] at hread
    cases hread
  · rintro ⟨line, hline, hskip, hnewline⟩
    exact tofromReadStream_of_skipped hcgi ndebug h hterm hline hskip hnewline

/-- A rule, a default, and a line with a single field. -/
theorem tofromReadStream_iff_rules :
    ∃ l', tofromReadStream stdCgi false AddrList.init true
        (getlines 10 (ascii "0 REJECT a@b\n7 ACCEPT default\nx\n")) = .ok l' ∧
      Implements l' (((getlines 10 (ascii "0 REJECT a@b\n7 ACCEPT default\nx\n")).filterMap
        (lineEdit stdCgi)).foldl AddrMap.apply AddrMap.init) := by
  refine (tofromReadStream_iff stdCgi_behaves.trims false Implements.init _).1.mpr ?_
  decide +kernel

/-- A comment in front of a rule. -/
theorem tofromReadStream_comment :
    ¬ ∃ l', tofromReadStream stdCgi false AddrList.init true
        (getlines 10 (ascii "# who may\n0 ACCEPT a@b\n")) = .ok l' := by
  have hread : tofromReadStream stdCgi false AddrList.init true
      (getlines 10 (ascii "# who may\n0 ACCEPT a@b\n")) = .error .doubleFree := by
    decide +kernel
  rw [hread]
  rintro ⟨l', h⟩
  cases h

end XGrey
