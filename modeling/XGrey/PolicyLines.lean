import XGrey.Lib.TextFile
import XGrey.PolicyBuffer

/-!
# Lines without a Value

What the Postfix client makes of any input, in whatever pieces it arrives. By itself a line
is the end of a request, or it has a name and a value, or it is bad input and ends the
program (`textServe`). `process_request` looks for the end of the line and for the `=` in it
separately, and for both in all that the buffer holds: a line without a `=` is given the
value of a later line if that has been read already.

## Main results

* `treated_iff`: a line is treated as what it is exactly when it has a `=`, or none has been
  read behind it.
* `pfcMain_iff`: if that is so of every line that is reached, then what the program does
  depends on the bytes of the input alone, not on its pieces.
-/

open CRuntime TextFile

namespace XGrey

/-! ### Lines by themselves -/

/-- The name and the value of a line, if it has any. Both end at a zero byte if there is one
in them. -/
def lineAttribute (front : List UInt8) : Option (List UInt8 × List UInt8) :=
  if 61 ∈ front then
    some ((front.takeWhile (· ≠ 61)).takeWhile (· ≠ 0),
      ((front.dropWhile (· ≠ 61)).drop 1).takeWhile (· ≠ 0))
  else none

/-- A request at the beginning of some lines, with the lines behind it. -/
def textRequest (N : ℕ) :
    List (List UInt8) → PolicyAttrs → Option (PolicyAttrs × List (List UInt8))
  | [], _ => none
  | line :: lines, a =>
      if line.getLast? ≠ some 10 ∨ N < line.length then none
      else if line = [10] then some (a, lines)
      else
        match lineAttribute line.dropLast with
        | none => none
        | some (name, value) => textRequest N lines (a.set name value)

/-- The requests at the beginning of some lines, answered one after the other as long as
there are reactions, and whether the program has come to its end. -/
def textServe (ndebug : Bool) (N : ℕ) :
    List (List UInt8) → List Reaction → Exec (List Exchange × Bool)
  | _, [] => .ok ([], false)
  | lines, r :: rs =>
      match textRequest N lines PolicyAttrs.empty with
      | none => .ok ([], true)
      | some (a, lines) => do
          let answer ← mailAnswer ndebug r.response
          cassert ndebug (r.written = answer.text.length)
          let (exchanges, ended) ← textServe ndebug N lines rs
          .ok ({ query := a, reply := answer.text } :: exchanges, ended)

/-! ### The program -/

/-- The loop of `main` as long as there are reactions, and whether it has come to its
end. -/
def pfcMain (ndebug : Bool) (N : ℕ) : PolicyInput → List Reaction → Exec (List Exchange × Bool)
  | _, [] => .ok ([], false)
  | s, r :: rs => do
      match ← processRequest ndebug N s r with
      | (_, none) => .ok ([], true)
      | (s, some exchange) => do
          let (exchanges, ended) ← pfcMain ndebug N s rs
          .ok (exchange :: exchanges, ended)

/-- A turn of the loop of `process_request`, and the next call after an answer. -/
inductive PolicyStep (N : ℕ) : PolicyInput × PolicyAttrs → PolicyInput × PolicyAttrs → Prop
  | again {s s' : PolicyInput} {a a' : PolicyAttrs}
      (h : policyTurn N s a = .ok (.again s' a')) : PolicyStep N (s, a) (s', a')
  | answer {s s' : PolicyInput} {a a' : PolicyAttrs}
      (h : policyTurn N s a = .ok (.answer s' a')) :
      PolicyStep N (s, a) (s', PolicyAttrs.empty)

/-- The program gets from one state to another. -/
def Reaches (N : ℕ) : PolicyInput × PolicyAttrs → PolicyInput × PolicyAttrs → Prop :=
  Relation.ReflTransGen (PolicyStep N)

/-- A line is treated as what it is: one without a name and a value ends the program, and
any other sets what its name stands for and nothing else. -/
def Treated (N : ℕ) (s : PolicyInput) (a : PolicyAttrs) (front more : List UInt8) : Prop :=
  match lineAttribute front with
  | none => policyTurn N s a = .ok .stop
  | some (name, value) => ∃ s', policyTurn N s a = .ok (.again s' (a.set name value)) ∧
      s'.pending = more ++ s.chunks.flatten

/-- No line before the end of a request is taken together with a later one. -/
def LinesApart (N : ℕ) (x : PolicyInput × PolicyAttrs) : Prop :=
  ∀ s a front more, Reaches N x (s, a) → AtLine s front more → front ≠ [] →
    61 ∈ front ∨ 61 ∉ more

/-! ### One line -/

section Line

variable {N : ℕ} {s : PolicyInput} {a : PolicyAttrs} {front more : List UInt8}

/-- The name and the value of a line that is parted by a `=`. -/
theorem lineAttribute_eq {name value : List UInt8} (h : 61 ∉ name) :
    lineAttribute (name ++ 61 :: value) =
      some (name.takeWhile (· ≠ 0), value.takeWhile (· ≠ 0)) := by
  have hne : ∀ c ∈ name, decide (c ≠ 61) = true :=
    fun c hc => decide_eq_true fun heq : c = 61 => h (heq ▸ hc)
  rw [lineAttribute, if_pos (by simp), takeWhile_append_cons h,
    List.dropWhile_append_of_pos hne, List.dropWhile_cons_of_neg (by simp)]
  rfl

/-- **A line is treated as what it is** exactly when it has a `=`, or none has been read
behind it. -/
theorem treated_iff (hs : s.Ok N) (h : AtLine s front more) (hnil : front ≠ []) :
    Treated N s a front more ↔ 61 ∈ front ∨ 61 ∉ more := by
  by_cases hfront : 61 ∈ front
  · refine iff_of_true ?_ (Or.inl hfront)
    obtain ⟨name, value, rfl, hname⟩ := List.eq_append_cons_of_mem hfront
    obtain ⟨s', hturn, -, hpending⟩ := policyTurn_attribute hs h hname a
    rw [Treated, lineAttribute_eq hname]
    exact ⟨s', hturn, hpending⟩
  · rw [Treated, lineAttribute, if_neg hfront]
    exact (policyTurn_bad h hnil hfront a).trans (or_iff_right hfront).symm

end Line

/-! ### The whole input -/

section Input

variable {N : ℕ} {x y : PolicyInput × PolicyAttrs}

theorem Leads.reaches (h : Leads N x y) : Reaches N x y := by
  induction h with
  | refl => exact .refl
  | tail _ hturn ih => exact ih.tail (PolicyStep.again hturn)

/-- The buffer stays as it should be. -/
theorem Reaches.ok (h : Reaches N x y) (hx : x.1.Ok N) : y.1.Ok N := by
  induction h with
  | refl => exact hx
  | tail _ hstep ih =>
      cases hstep with
      | again hturn => exact ih.turn hturn rfl
      | answer hturn => exact ih.turn hturn rfl

theorem LinesApart.mono (h : LinesApart N x) (hxy : Reaches N x y) : LinesApart N y :=
  fun s a front more hreach => h s a front more (hxy.trans hreach)

/-! ### Input in which every line has a value -/

/-- Every line of a text is empty or has a `=` in it. -/
def HasValues (text : List UInt8) : Prop :=
  ∀ line ∈ getlines 10 text, line = [10] ∨ 61 ∈ line

instance : DecidablePred HasValues :=
  fun text => inferInstanceAs (Decidable (∀ line ∈ getlines 10 text, line = [10] ∨ 61 ∈ line))

section Line

variable {s : PolicyInput} {a : PolicyAttrs} {front more : List UInt8}

/-- What is to come when the loop looks at a line. -/
theorem AtLine.pending_eq (h : AtLine s front more) :
    s.pending = front ++ 10 :: (more ++ s.chunks.flatten) := by
  rw [PolicyInput.pending, h.live_eq, List.append_assoc, List.cons_append]

/-- The line itself has a value, and the lines behind it have. -/
theorem AtLine.hasValues (h : AtLine s front more) (hvalues : HasValues s.pending) :
    (front = [] ∨ 61 ∈ front) ∧ HasValues (more ++ s.chunks.flatten) := by
  rw [HasValues, h.pending_eq, getlines_line h.front_line, List.forall_mem_cons] at hvalues
  refine ⟨?_, hvalues.2⟩
  simpa using hvalues.1

/-- A step does not come upon anything that was not to come. -/
theorem HasValues.step (hs : s.Ok N) (hvalues : HasValues s.pending)
    (hstep : PolicyStep N (s, a) y) : HasValues y.1.pending := by
  rcases policyTurn_cases hs a with ⟨front, more, hat⟩ | ⟨s₁, hturn, -, hsame⟩ | ⟨hstop, -⟩
  · obtain ⟨hline, hrest⟩ := hat.hasValues hvalues
    rcases hline with rfl | hequals
    · obtain ⟨s', hturn, -, hpending⟩ := policyTurn_blank hs hat a
      rw [← hpending] at hrest
      cases hstep with
      | again h => rw [hturn] at h; cases h
      | answer h =>
          rw [hturn] at h
          cases h
          exact hrest
    · obtain ⟨name, value, rfl, hname⟩ := List.eq_append_cons_of_mem hequals
      obtain ⟨s', hturn, -, hpending⟩ := policyTurn_attribute hs hat hname a
      rw [← hpending] at hrest
      cases hstep with
      | again h =>
          rw [hturn] at h
          cases h
          exact hrest
      | answer h => rw [hturn] at h; cases h
  · rw [← hsame] at hvalues
    cases hstep with
    | again h =>
        rw [hturn] at h
        cases h
        exact hvalues
    | answer h => rw [hturn] at h; cases h
  · cases hstep with
    | again h => rw [hstop] at h; cases h
    | answer h => rw [hstop] at h; cases h

end Line

theorem Reaches.hasValues (h : Reaches N x y) (hx : x.1.Ok N) (hvalues : HasValues x.1.pending) :
    HasValues y.1.pending := by
  induction h with
  | refl => exact hvalues
  | tail hreach hstep ih => exact ih.step (Reaches.ok hreach hx) hstep

/-- **If every line has a value**, lines are taken apart, whatever the pieces are. -/
theorem HasValues.linesApart (hx : x.1.Ok N) (hvalues : HasValues x.1.pending) :
    LinesApart N x := by
  intro s a front more hreach hat hnil
  obtain ⟨hline, -⟩ := hat.hasValues (hreach.hasValues hx hvalues)
  exact Or.inl (hline.resolve_left hnil)

/-! ### Requests -/

/-- The first line of a text decides how its first request begins. -/
theorem textRequest_line {front : List UInt8} (hfront : 10 ∉ front) (rest : List UInt8)
    (a : PolicyAttrs) :
    textRequest N (getlines 10 (front ++ 10 :: rest)) a =
      if N ≤ front.length then none
      else if front = [] then some (a, getlines 10 rest)
      else
        match lineAttribute front with
        | none => none
        | some (name, value) => textRequest N (getlines 10 rest) (a.set name value) := by
  have hends : (front ++ [10]).getLast? = some 10 := List.getLast?_concat
  rw [getlines_line hfront, textRequest, List.dropLast_concat]
  by_cases hlong : N ≤ front.length
  · rw [if_pos hlong, if_pos]
    refine Or.inr ?_
    rw [List.length_append, List.length_singleton]
    omega
  · rw [if_neg hlong, if_neg]
    · have hempty : front ++ [10] = [10] ↔ front = [] := by simp
      simp only [hempty]
    · refine not_or.mpr ⟨not_not.mpr hends, ?_⟩
      rw [List.length_append, List.length_singleton]
      omega

/-- A text without a newline has no request. -/
theorem textRequest_no_line {text : List UInt8} (h : 10 ∉ text) (a : PolicyAttrs) :
    textRequest N (getlines 10 text) a = none := by
  rw [getlines_of_notMem h]
  split_ifs with hnil
  · rfl
  · have hlast : text.getLast? ≠ some 10 := fun hlast => h (List.mem_of_getLast? hlast)
    rw [textRequest, if_pos (Or.inl hlast)]

/-- The loop makes of the input what its lines say, up to the end of a request. -/
def RequestRead (N : ℕ) (s : PolicyInput) (a : PolicyAttrs) : Prop :=
  match textRequest N (getlines 10 s.pending) a with
  | none => processLoop N s a = .ok none
  | some (a', lines) => ∃ s', processLoop N s a = .ok (some (s', a')) ∧ s'.Ok N ∧
      getlines 10 s'.pending = lines ∧ Reaches N (s, a) (s', PolicyAttrs.empty)

/-- A request whose first line has been used is read if the rest of it is. -/
theorem RequestRead.of_next {s s' : PolicyInput} {a a' : PolicyAttrs}
    (htext : textRequest N (getlines 10 s.pending) a =
      textRequest N (getlines 10 s'.pending) a')
    (hloop : processLoop N s a = processLoop N s' a') (hreach : Reaches N (s, a) (s', a'))
    (h : RequestRead N s' a') : RequestRead N s a := by
  rw [RequestRead] at h ⊢
  rw [htext, hloop]
  cases hfound : textRequest N (getlines 10 s'.pending) a' with
  | none =>
      rw [hfound] at h
      exact h
  | some found =>
      rw [hfound] at h
      obtain ⟨t, hanswer, hok, hlines, hreach'⟩ := h
      exact ⟨t, hanswer, hok, hlines, hreach.trans hreach'⟩

/-- **A request** is what its lines say, if they are taken apart. -/
theorem LinesApart.requestRead {s : PolicyInput} (hs : s.Ok N) {a : PolicyAttrs}
    (h : LinesApart N (s, a)) : RequestRead N s a := by
  induction hlen : s.pending.length using Nat.strongRecOn generalizing s a with
  | ind m ih =>
      by_cases hline : 10 ∈ s.pending
      · obtain ⟨front, rest, hpending, hfront⟩ := List.eq_append_cons_of_mem hline
        have htext := textRequest_line (N := N) hfront rest a
        rw [← hpending] at htext
        by_cases hlong : N ≤ front.length
        · -- the line does not fit into the buffer
          rw [RequestRead, htext, if_pos hlong]
          refine processLoop_no_line hs ?_ a
          rw [hpending, List.take_append_of_le_length hlong]
          exact fun hmem => hfront (List.mem_of_mem_take hmem)
        rw [if_neg hlong] at htext
        obtain ⟨s₁, more, hleads, hok, hat, hrest⟩ :=
          leads_atLine hs hfront hpending (by omega) a
        have hloop : processLoop N s a = processLoop N s₁ a := processLoop_of_leads hleads
        by_cases hnil : front = []
        · -- the empty line
          subst hnil
          obtain ⟨s', hturn, hok', hpending'⟩ := policyTurn_blank hok hat a
          rw [RequestRead, htext, if_pos rfl, hloop]
          exact ⟨s', processLoop_answer hturn, hok', by rw [hpending', hrest],
            hleads.reaches.tail (PolicyStep.answer hturn)⟩
        rw [if_neg hnil] at htext
        by_cases hequals : 61 ∈ front
        · -- a name and a value
          obtain ⟨name, value, rfl, hname⟩ := List.eq_append_cons_of_mem hequals
          obtain ⟨s₂, hturn, hok₂, hpending₂⟩ := policyTurn_attribute hok hat hname a
          have hreach : Reaches N (s, a) (s₂, a.set (name.takeWhile (· ≠ 0))
              (value.takeWhile (· ≠ 0))) := hleads.reaches.tail (PolicyStep.again hturn)
          have hshort : s₂.pending.length < m := by
            rw [hpending₂, hrest, ← hlen, hpending, List.length_append, List.length_cons]
            omega
          rw [lineAttribute_eq hname, ← hrest, ← hpending₂] at htext
          exact RequestRead.of_next htext (hloop.trans (processLoop_again hturn)) hreach
            (ih _ hshort hok₂ (h.mono hreach) rfl)
        · -- bad input
          have hmore := (h s₁ a front more hleads.reaches hat hnil).resolve_left hequals
          rw [lineAttribute, if_neg hequals] at htext
          rw [RequestRead, htext, hloop]
          exact processLoop_stop ((policyTurn_bad hat hnil hequals a).mpr hmore)
      · rw [RequestRead, textRequest_no_line hline]
        exact processLoop_no_line hs (fun hmem => hline (List.mem_of_mem_take hmem)) a

/-- **The program** makes of the input what its lines say, if they are taken apart. -/
theorem pfcMain_eq_textServe (ndebug : Bool) {s : PolicyInput} (hs : s.Ok N)
    (h : LinesApart N (s, PolicyAttrs.empty)) (reactions : List Reaction) :
    pfcMain ndebug N s reactions = textServe ndebug N (getlines 10 s.pending) reactions := by
  induction reactions generalizing s with
  | nil => rw [pfcMain, textServe]
  | cons r rs ih =>
      have hloop := LinesApart.requestRead hs h
      rw [RequestRead] at hloop
      rw [pfcMain, textServe, processRequest]
      cases htext : textRequest N (getlines 10 s.pending) PolicyAttrs.empty with
      | none =>
          rw [htext] at hloop
          rw [hloop]
          rfl
      | some found =>
          obtain ⟨a, lines⟩ := found
          rw [htext] at hloop
          obtain ⟨s', hanswer, hok, hlines, hreach⟩ := hloop
          rw [hanswer, ok_bind]
          dsimp only
          cases mailAnswer ndebug r.response with
          | error e => rfl
          | ok answer =>
              rw [ok_bind, ok_bind]
              cases cassert ndebug (r.written = answer.text.length) with
              | error e => rfl
              | ok _ =>
                  rw [ok_bind, ok_bind, ok_bind]
                  dsimp only
                  rw [ih hok (h.mono hreach), hlines]

end Input

/-- **When lines are treated as what they are.** Every line that the program reaches before
the end of a request is, exactly when each of them has a `=` or none has been read behind
it. Then what the program does depends on the bytes of the input alone, and not on the
pieces in which they arrive. -/
theorem pfcMain_iff {N : ℕ} {chunks : List (List UInt8)}
    (hchunks : ∀ chunk ∈ chunks, chunk ≠ []) :
    ((∀ s a front more, Reaches N (PolicyInput.start N chunks, PolicyAttrs.empty) (s, a) →
        AtLine s front more → front ≠ [] → Treated N s a front more) ↔
      LinesApart N (PolicyInput.start N chunks, PolicyAttrs.empty)) ∧
    (LinesApart N (PolicyInput.start N chunks, PolicyAttrs.empty) →
      ∀ (ndebug : Bool) (reactions : List Reaction),
        pfcMain ndebug N (PolicyInput.start N chunks) reactions =
          textServe ndebug N (getlines 10 chunks.flatten) reactions) := by
  have hok := PolicyInput.ok_start N hchunks
  refine ⟨?_, fun h ndebug reactions => pfcMain_eq_textServe ndebug hok h reactions⟩
  refine forall_congr' fun s => forall_congr' fun a => forall_congr' fun front =>
    forall_congr' fun more => ?_
  refine imp_congr_right fun hreach => imp_congr_right fun hat => imp_congr_right fun hnil => ?_
  exact treated_iff (hreach.ok hok) hat hnil

/-- A request in two pieces, with the cut in front of the `=`. -/
theorem pfcMain_iff_cut :
    pfcMain false 8192 (PolicyInput.start 8192 [ascii "sender", ascii "=b\n\n"])
        [⟨Ift.accept, 14⟩] =
      textServe false 8192 (getlines 10 [ascii "sender", ascii "=b\n\n"].flatten)
        [⟨Ift.accept, 14⟩] :=
  (pfcMain_iff (by decide)).2
    (HasValues.linesApart (PolicyInput.ok_start 8192 (by decide)) (by decide)) false _

/-- A line without a value in front of one with a value: with both in the buffer the first
takes the value of the second, and the second that of its own rest. -/
theorem pfcMain_pieces :
    pfcMain false 8192 (PolicyInput.start 8192 [ascii "a\nsender=b=c\n\n"])
        [⟨Ift.accept, 14⟩] =
      .ok ([{ query := PolicyAttrs.empty.set (ascii "sender") (ascii "c")
              reply := MailAnswer.pass.text }], false) ∧
    pfcMain false 8192 (PolicyInput.start 8192 [ascii "a\n", ascii "sender=b=c\n\n"])
        [⟨Ift.accept, 14⟩] = .ok ([], true) := by
  decide +kernel

end XGrey
