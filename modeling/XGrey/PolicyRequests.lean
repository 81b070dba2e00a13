import XGrey.Lib.StepRun
import XGrey.PolicyBuffer

/-!
# Policy Requests

What the Postfix client makes of the requests that it is sent (`process_request` of
`postfix/pfc.c`): lines with a name and a value each, with an empty line behind every
request. The pieces in which they arrive do not matter.

## Main result

* `run_processRequest`: each request leads to one call of `check_greylist`, with the values
  that were given last, and to the reply of its verdict.
-/

open CRuntime StepRun

namespace XGrey

/-! ### Requests -/

/-- A line of a request that fits into a buffer of `N` bytes. -/
structure PolicyLine (N : ℕ) where
  name : List UInt8
  value : List UInt8
  equals_name : 61 ∉ name
  newline_name : 10 ∉ name
  zero_name : 0 ∉ name
  newline_value : 10 ∉ value
  zero_value : 0 ∉ value
  fits : name.length + value.length + 2 ≤ N

section Requests

variable {N : ℕ}

/-- The line without its newline. -/
def PolicyLine.front (line : PolicyLine N) : List UInt8 := line.name ++ 61 :: line.value

/-- The text of a request. -/
def requestText (req : List (PolicyLine N)) : List UInt8 :=
  req.flatMap (fun line => line.front ++ [10]) ++ [10]

/-- The value that a request gives last under a name, or the empty string. -/
def lastValue (name : List UInt8) (req : List (PolicyLine N)) : List UInt8 :=
  ((req.filter fun line => line.name = name).getLast?.map PolicyLine.value).getD []

/-- What `check_greylist` should be asked for a request. -/
def query (req : List (PolicyLine N)) : PolicyAttrs where
  request := lastValue (ascii "request") req
  sender := lastValue (ascii "sender") req
  recipient := lastValue (ascii "recipient") req
  ip := lastValue (ascii "client_address") req

/-- One more line changes the value of its own name. -/
theorem lastValue_concat (name : List UInt8) (req : List (PolicyLine N)) (line : PolicyLine N) :
    lastValue name (req ++ [line]) =
      if line.name = name then line.value else lastValue name req := by
  rw [lastValue, List.filter_append]
  split_ifs with hname
  · simp [hname]
  · simp [hname, lastValue]

/-- Setting the value of a line is what the line adds to the question. -/
theorem set_query (req : List (PolicyLine N)) (line : PolicyLine N) :
    (query req).set line.name line.value = query (req ++ [line]) := by
  -- no name is that of two strings
  have hnames : [ascii "request", ascii "sender", ascii "recipient",
      ascii "client_address"].Nodup := by decide
  simp only [List.nodup_cons, List.mem_cons, List.not_mem_nil, or_false, not_or,
    List.nodup_nil, and_true, not_false_eq_true] at hnames
  obtain ⟨⟨hsender, hrecipient, hip⟩, ⟨hrecipient', hip'⟩, hip''⟩ := hnames
  rw [PolicyAttrs.set, query, query]
  simp only [lastValue_concat]
  by_cases h₁ : line.name = ascii "request"
  · simp [h₁, hsender, hrecipient, hip]
  by_cases h₂ : line.name = ascii "sender"
  · rw [h₂] at h₁ ⊢
    simp [h₁, hrecipient', hip']
  by_cases h₃ : line.name = ascii "recipient"
  · rw [h₃] at h₁ h₂ ⊢
    simp [h₁, h₂, hip'']
  by_cases h₄ : line.name = ascii "client_address"
  · rw [h₄] at h₁ h₂ h₃ ⊢
    simp [h₁, h₂, h₃]
  · simp [h₁, h₂, h₃, h₄]

/-- **The strings of a request** are the values that were given last. -/
theorem foldl_set_eq_query (req : List (PolicyLine N)) :
    req.foldl (fun a line => a.set line.name line.value) PolicyAttrs.empty = query req := by
  induction req using List.reverseRecOn with
  | nil => rfl
  | append_singleton req line ih =>
      rw [List.foldl_concat, ih, set_query]

/-! ### One request -/

theorem newline_front (line : PolicyLine N) : 10 ∉ line.front := by
  simp [PolicyLine.front, line.newline_name, line.newline_value]

/-- A string without a zero byte ends at its end. -/
theorem takeWhile_ne_zero {text : List UInt8} (h : 0 ∉ text) :
    text.takeWhile (· ≠ 0) = text := by
  rw [List.takeWhile_eq_self_iff]
  intro c hc
  simpa using fun hzero : c = 0 => h (hzero ▸ hc)

/-- **The loop on a request** ends behind it, with its values set one after the other. -/
theorem processLoop_request (hN : 0 < N) (req : List (PolicyLine N)) {s : PolicyInput}
    (h : s.Ok N) {rest : List UInt8} (hpending : s.pending = requestText req ++ rest)
    (a : PolicyAttrs) :
    ∃ s', processLoop N s a =
        .ok (some (s', req.foldl (fun a line => a.set line.name line.value) a)) ∧
      s'.Ok N ∧ s'.pending = rest := by
  induction req generalizing s a with
  | nil =>
      obtain ⟨s₁, more, hleads, hok, hline, hrest⟩ :=
        leads_atLine h (List.not_mem_nil : 10 ∉ ([] : List UInt8)) hpending hN a
      obtain ⟨s', hturn, hok', hpending'⟩ := policyTurn_blank hok hline a
      refine ⟨s', ?_, hok', hpending'.trans hrest⟩
      rw [processLoop_of_leads hleads]
      exact processLoop_answer hturn
  | cons line req ih =>
      have hsplit : s.pending = line.front ++ 10 :: (requestText req ++ rest) := by
        simp [hpending, requestText]
      have hfits : line.front.length < N := by
        have := line.fits
        rw [PolicyLine.front, List.length_append, List.length_cons]
        omega
      obtain ⟨s₁, more, hleads, hok, hline, hrest⟩ :=
        leads_atLine h (newline_front line) hsplit hfits a
      obtain ⟨s₂, hturn, hok₂, hpending₂⟩ :=
        policyTurn_attribute hok hline line.equals_name a
      rw [takeWhile_ne_zero line.zero_name, takeWhile_ne_zero line.zero_value] at hturn
      obtain ⟨s', hloop, hs'⟩ := ih hok₂ (hpending₂.trans hrest) (a.set line.name line.value)
      refine ⟨s', ?_, hs'⟩
      rw [processLoop_of_leads hleads, List.foldl_cons, ← hloop]
      exact processLoop_again hturn

end Requests

/-! ### All requests -/

/-- The reply of a verdict. -/
def verdictText (v : ℤ) : List UInt8 :=
  if v = Ift.accept then MailAnswer.pass.text
  else if v = Ift.reject then MailAnswer.refuse.text
  else MailAnswer.defer.text

/-- `check_greylist` returns a verdict, and the reply of it is written. -/
def Reaction.Fine (r : Reaction) : Prop :=
  IsVerdict r.response ∧ r.written = (verdictText r.response).length

instance : DecidablePred Reaction.Fine :=
  fun r => inferInstanceAs (Decidable
    (IsVerdict r.response ∧ r.written = (verdictText r.response).length))

/-- A verdict is answered by its reply. -/
theorem mailAnswer_of_isVerdict (ndebug : Bool) {v : ℤ} (h : IsVerdict v) :
    ∃ answer, mailAnswer ndebug v = .ok answer ∧ answer.text = verdictText v := by
  rcases h with rfl | rfl | rfl
  · exact ⟨.defer, rfl, rfl⟩
  · exact ⟨.pass, rfl, rfl⟩
  · exact ⟨.refuse, rfl, rfl⟩

/-- One call takes the next request and answers it. -/
theorem processRequest_request (ndebug : Bool) {N : ℕ} (hN : 0 < N)
    (req : List (PolicyLine N)) {r : Reaction} (hr : r.Fine) {s : PolicyInput} (h : s.Ok N)
    {rest : List UInt8} (hpending : s.pending = requestText req ++ rest) :
    ∃ s', processRequest ndebug N s r =
        .ok (s', some { query := query req, reply := verdictText r.response }) ∧
      s'.Ok N ∧ s'.pending = rest := by
  obtain ⟨s', hloop, hs'⟩ := processLoop_request hN req h hpending PolicyAttrs.empty
  obtain ⟨answer, hanswer, htext⟩ := mailAnswer_of_isVerdict ndebug hr.1
  refine ⟨s', ?_, hs'⟩
  rw [processRequest, hloop, ok_bind]
  dsimp only
  rw [hanswer, ok_bind, htext, cassert_of hr.2, ok_bind, foldl_set_eq_query]

/-- The calls for some requests that are all there is. -/
theorem run_requests (ndebug : Bool) {N : ℕ} (hN : 0 < N)
    (served : List (List (PolicyLine N) × Reaction)) (hfine : ∀ x ∈ served, x.2.Fine)
    {s : PolicyInput} (h : s.Ok N)
    (hpending : s.pending = served.flatMap fun x => requestText x.1) :
    ∃ s', run (processRequest ndebug N) s (served.map Prod.snd) =
        .ok (s', served.map fun x =>
          some { query := query x.1, reply := verdictText x.2.response }) ∧
      s'.Ok N ∧ s'.pending = [] := by
  induction served generalizing s with
  | nil => exact ⟨s, rfl, h, hpending⟩
  | cons x served ih =>
      obtain ⟨hx, hrest⟩ := List.forall_mem_cons.mp hfine
      rw [List.flatMap_cons] at hpending
      obtain ⟨s₁, hcall, hok, hpending₁⟩ :=
        processRequest_request ndebug hN x.1 hx h hpending
      obtain ⟨s', hrun, hs'⟩ := ih hrest hok hpending₁
      refine ⟨s', ?_, hs'⟩
      rw [List.map_cons, run_cons_of_ok _ hcall, hrun]
      rfl

/-- **Each request is answered once.** Whatever the pieces are in which some requests
arrive, each call of `process_request` takes the next of them, calls `check_greylist` with
the values that it gives last, and writes the reply of the verdict. The call behind the last
request returns 0. -/
theorem run_processRequest (ndebug : Bool) {N : ℕ} (hN : 0 < N) {chunks : List (List UInt8)}
    (hchunks : ∀ chunk ∈ chunks, chunk ≠ [])
    (served : List (List (PolicyLine N) × Reaction)) (hfine : ∀ x ∈ served, x.2.Fine)
    (hinput : chunks.flatten = served.flatMap fun x => requestText x.1) :
    ∃ s, run (processRequest ndebug N) (PolicyInput.start N chunks) (served.map Prod.snd) =
        .ok (s, served.map fun x =>
          some { query := query x.1, reply := verdictText x.2.response }) ∧
      ∀ r, processRequest ndebug N s r = .ok (s, none) := by
  obtain ⟨s, hrun, hok, hpending⟩ := run_requests ndebug hN served hfine
    (PolicyInput.ok_start N hchunks) ((PolicyInput.pending_start N chunks).trans hinput)
  refine ⟨s, hrun, fun r => ?_⟩
  have hend : 10 ∉ s.pending.take N := by
    rw [hpending, List.take_nil]
    exact List.not_mem_nil
  rw [processRequest, processLoop_no_line hok hend, ok_bind]

/-- A line with a sender. -/
def senderLine : PolicyLine 64 where
  name := ascii "sender"
  value := ascii "a"
  equals_name := by decide
  newline_name := by decide
  zero_name := by decide
  newline_value := by decide
  zero_value := by decide
  fits := by decide

/-- A request with a sender and one without, in three pieces. -/
theorem run_processRequest_two :
    ∃ s, run (processRequest false 64)
        (PolicyInput.start 64 [ascii "sen", ascii "der=a\n\n", ascii "\n"])
        [⟨Ift.accept, 14⟩, ⟨Ift.reject, 59⟩] =
        .ok (s, [some { query := query [senderLine], reply := verdictText Ift.accept },
          some { query := query ([] : List (PolicyLine 64)), reply := verdictText Ift.reject }]) ∧
      ∀ r, processRequest false 64 s r = .ok (s, none) :=
  run_processRequest false (by decide) (by decide)
    [([senderLine], ⟨Ift.accept, 14⟩), ([], ⟨Ift.reject, 59⟩)] (by decide) (by decide)

end XGrey
