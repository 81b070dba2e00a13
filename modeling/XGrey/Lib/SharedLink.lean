import Mathlib.Data.List.Forall2
import Mathlib.Logic.Function.Basic
import XGrey.Lib.RequestReply
import XGrey.Lib.StepRun

/-!
# Callers that Share a Link

Callers on top of `RequestReply`: each sends a request and then waits, until it takes a
reply or gives up. A reply does not tell whose it is, so whoever comes first takes the
oldest one; a request whose caller gave up is answered all the same, and its reply waits
for the next who takes one.

## Main results

* `run_accounted`: whatever the callers, the server and the delays do, a call that takes a
  reply takes that to the request whose number is that of the replies taken before.
* `run_oneByOne`: if there is only one caller, then the `k`-th call sent the `k`-th
  request.
-/

open StepRun

namespace RequestReply

variable {ι σ α β ε υ Req Rep V φ : Type*}

/-- What the callers and the server do. Encoding and decoding may fail, and the server
may fail to answer. -/
structure Service (σ α β ε υ Req Rep V φ : Type*) where
  /-- the request for an argument -/
  encode : α → Except φ Req
  handle : ε → σ → Req → Option (σ × Rep)
  /-- what else the server does -/
  work : υ → σ → Option σ
  /-- what a caller makes of a reply, which may depend on the caller's memory -/
  decode : β → Rep → Except φ V
  /-- what it returns when it gives up -/
  fallback : V

/-- A call that has returned. -/
structure Call (ι α Rep V : Type*) where
  caller : ι
  arg : α
  /-- the number of the request that it sent -/
  number : ℕ
  /-- the reply that it took, with the number of the request that this answers, unless it
  gave up -/
  taken : Option (Rep × ℕ)
  result : V

/-- The callers, their link, and the history of both. -/
structure Callers (ι σ α Req Rep V : Type*) where
  link : Link σ Req Rep
  /-- who sent each request, and for what -/
  sent : List (ι × α)
  /-- the callers that wait, each with the number of its request -/
  waiting : ι → Option (ℕ × α)
  /-- the calls that have returned, in order -/
  calls : List (Call ι α Rep V)

/-- Nobody has sent anything. -/
def Callers.init (s : σ) : Callers ι σ α Req Rep V where
  link := Link.init s
  sent := []
  waiting := fun _ => none
  calls := []

/-- A caller has sent a request and waits. -/
def Callers.send [DecidableEq ι] (c : Callers ι σ α Req Rep V) (i : ι) (a : α) (q : Req) :
    Callers ι σ α Req Rep V :=
  { c with
    link := c.link.send q
    sent := c.sent ++ [(i, a)]
    waiting := Function.update c.waiting i (some (c.sent.length, a)) }

/-- A call has returned, and its caller does not wait any more. -/
def Callers.finish [DecidableEq ι] (c : Callers ι σ α Req Rep V) (call : Call ι α Rep V) :
    Callers ι σ α Req Rep V :=
  { c with
    waiting := Function.update c.waiting call.caller none
    calls := c.calls ++ [call] }

/-- One move of a caller or of the server. -/
inductive Move (ι α β ε υ : Type*)
  /-- A caller that does not wait sends a request. -/
  | send (i : ι) (a : α)
  /-- The server answers the oldest request. -/
  | serve (e : ε)
  | work (u : υ)
  /-- A caller that waits takes the oldest reply. -/
  | receive (i : ι) (b : β)
  | giveUp (i : ι)

/-- Why a move does not take place. -/
inductive Stop (φ : Type*)
  | notReady
  | failed (f : φ)
  deriving DecidableEq

/-- One move. -/
def step [DecidableEq ι] (p : Service σ α β ε υ Req Rep V φ) (c : Callers ι σ α Req Rep V) :
    Move ι α β ε υ → Except (Stop φ) (Callers ι σ α Req Rep V × Unit)
  | .send i a =>
      match c.waiting i, p.encode a with
      | none, .ok q => .ok (c.send i a q, ())
      | none, .error f => .error (.failed f)
      | some _, _ => .error .notReady
  | .serve e =>
      match c.link.serve (p.handle e) with
      | some link => .ok ({ c with link := link }, ())
      | none => .error .notReady
  | .work u =>
      match p.work u c.link.server with
      | some s => .ok ({ c with link := { c.link with server := s } }, ())
      | none => .error .notReady
  | .receive i b =>
      match c.waiting i, c.link.take with
      | some (n, a), some (reply, link) =>
          match p.decode b reply.1 with
          | .ok v => .ok (Callers.finish { c with link := link } ⟨i, a, n, some reply, v⟩, ())
          | .error f => .error (.failed f)
      | _, _ => .error .notReady
  | .giveUp i =>
      match c.waiting i with
      | some (n, a) => .ok (c.finish ⟨i, a, n, none, p.fallback⟩, ())
      | none => .error .notReady

/-- What a move can do. -/
inductive Steps [DecidableEq ι] (p : Service σ α β ε υ Req Rep V φ)
    (c : Callers ι σ α Req Rep V) : Callers ι σ α Req Rep V → Prop
  | send {i : ι} {a : α} {q : Req} (hwaiting : c.waiting i = none)
      (hencode : p.encode a = .ok q) : Steps p c (c.send i a q)
  | serve {e : ε} {link : Link σ Req Rep} (hserve : c.link.serve (p.handle e) = some link) :
      Steps p c { c with link := link }
  | work (s : σ) : Steps p c { c with link := { c.link with server := s } }
  | receive {i : ι} {b : β} {n m : ℕ} {a : α} {r : Rep} {v : V} {link : Link σ Req Rep}
      (hwaiting : c.waiting i = some (n, a)) (htake : c.link.take = some ((r, m), link))
      (hdecode : p.decode b r = .ok v) :
      Steps p c (Callers.finish { c with link := link } ⟨i, a, n, some (r, m), v⟩)
  | giveUp {i : ι} {n : ℕ} {a : α} (hwaiting : c.waiting i = some (n, a)) :
      Steps p c (c.finish ⟨i, a, n, none, p.fallback⟩)

theorem steps_of_step [DecidableEq ι] {p : Service σ α β ε υ Req Rep V φ}
    {c c' : Callers ι σ α Req Rep V} {m : Move ι α β ε υ} {o : Unit}
    (hstep : step p c m = .ok (c', o)) : Steps p c c' := by
  cases m with
  | send i a =>
      rw [step] at hstep
      split at hstep
      · rename_i hwaiting hencode
        cases hstep
        exact .send hwaiting hencode
      · cases hstep
      · cases hstep
  | serve e =>
      rw [step] at hstep
      split at hstep
      · rename_i hserve
        cases hstep
        exact .serve hserve
      · cases hstep
  | work u =>
      rw [step] at hstep
      split at hstep
      · cases hstep
        exact .work _
      · cases hstep
  | receive i b =>
      rw [step] at hstep
      split at hstep
      · rename_i hwaiting htake
        split at hstep
        · rename_i hdecode
          cases hstep
          exact .receive hwaiting htake hdecode
        · cases hstep
      · cases hstep
  | giveUp i =>
      rw [step] at hstep
      split at hstep
      · rename_i hwaiting
        cases hstep
        exact .giveUp hwaiting
      · cases hstep

/-- How many of the calls took a reply. -/
def received (calls : List (Call ι α Rep V)) : ℕ := calls.countP (·.taken.isSome)

/-- How many of them gave up. -/
def givenUp (calls : List (Call ι α Rep V)) : ℕ := calls.countP (·.taken.isNone)

theorem received_append (calls : List (Call ι α Rep V)) (call : Call ι α Rep V) :
    received (calls ++ [call]) = received calls + if call.taken.isSome then 1 else 0 := by
  rw [received, received, List.countP_append, List.countP_singleton]

/-- A call took a reply or gave up. -/
theorem received_add_givenUp (calls : List (Call ι α Rep V)) :
    received calls + givenUp calls = calls.length := by
  rw [received, givenUp, List.length_eq_countP_add_countP (fun call => call.taken.isSome)]
  congr 2
  funext call
  cases call.taken <;> rfl

/-- Nobody gave up exactly when every call took a reply. -/
theorem givenUp_eq_zero {calls : List (Call ι α Rep V)} :
    givenUp calls = 0 ↔ ∀ call ∈ calls, call.taken ≠ none := by
  rw [givenUp, List.countP_eq_zero]
  simp

section Invariants

variable {p : Service σ α β ε υ Req Rep V φ} {sent : List (ι × α)} {answers : List Rep}

/-- A prefix agrees with what it is a prefix of. -/
theorem getElem?_of_prefix {γ : Type*} {l l' : List γ} (h : l <+: l') {n : ℕ} {x : γ}
    (hx : l[n]? = some x) : l'[n]? = some x := by
  obtain ⟨hlt, hget⟩ := List.getElem?_eq_some_iff.mp hx
  rw [List.prefix_iff_getElem?.mp h n hlt, hget]

/-- A call sent the request with its number; and the reply that it took, if it took one,
is the next of the answers, and the result what it made of it. -/
structure CallOk (p : Service σ α β ε υ Req Rep V φ) (sent : List (ι × α))
    (answers : List Rep) (before : ℕ) (call : Call ι α Rep V) : Prop where
  own : sent[call.number]? = some (call.caller, call.arg)
  taken : ∀ r m, call.taken = some (r, m) →
    m = before ∧ answers[m]? = some r ∧ ∃ b, p.decode b r = .ok call.result
  givenUp : call.taken = none → call.result = p.fallback

/-- What was sent or answered later does not matter. -/
theorem CallOk.mono {before : ℕ} {call : Call ι α Rep V}
    (h : CallOk p sent answers before call) {sent' : List (ι × α)} {answers' : List Rep}
    (hsent : sent <+: sent') (hanswers : answers <+: answers') :
    CallOk p sent' answers' before call where
  own := getElem?_of_prefix hsent h.own
  taken r m hr := by
    obtain ⟨hm, hanswer, hdecode⟩ := h.taken r m hr
    exact ⟨hm, getElem?_of_prefix hanswers hanswer, hdecode⟩
  givenUp := h.givenUp

/-- Everything is accounted for: the messages are in order, every request is that of its
sender, who waits or has returned, and every reply that is not waiting was taken by a
call. -/
structure Accounted (p : Service σ α β ε υ Req Rep V φ) (c : Callers ι σ α Req Rep V) :
    Prop where
  ordered : Ordered p.handle c.link
  sent : List.Forall₂ (fun s q => p.encode s.2 = .ok q) c.sent c.link.asked
  waiting : ∀ i n a, c.waiting i = some (n, a) → c.sent[n]? = some (i, a)
  taken : c.link.taken = received c.calls
  calls : ∀ k call, c.calls[k]? = some call →
    CallOk p c.sent c.link.answers (received (c.calls.take k)) call

theorem accounted_init (s : σ) : Accounted p (Callers.init s : Callers ι σ α Req Rep V) where
  ordered := ordered_init s
  sent := .nil
  waiting i n a h := by cases h
  taken := rfl
  calls k call h := by cases h

/-- The request that was sent for an argument. -/
theorem Accounted.asked {c : Callers ι σ α Req Rep V} (h : Accounted p c) {n : ℕ} {i : ι}
    {a : α} (hn : c.sent[n]? = some (i, a)) :
    ∃ q, p.encode a = .ok q ∧ c.link.asked[n]? = some q := by
  obtain ⟨hlt, hget⟩ := List.getElem?_eq_some_iff.mp hn
  have hlt' : n < c.link.asked.length := h.sent.length_eq ▸ hlt
  have hencode := h.sent.get hlt hlt'
  rw [List.get_eq_getElem, List.get_eq_getElem, hget] at hencode
  exact ⟨c.link.asked[n], hencode, List.getElem?_eq_getElem hlt'⟩

/-- The number of the reply that a call took, and the number of the calls before it that gave
up, add up to the number of the calls before it. -/
theorem Accounted.taken_add_givenUp {c : Callers ι σ α Req Rep V} (h : Accounted p c) {k m : ℕ}
    {call : Call ι α Rep V} (hcall : c.calls[k]? = some call) {r : Rep}
    (htaken : call.taken = some (r, m)) : m + givenUp (c.calls.take k) = k := by
  obtain ⟨hm, -⟩ := (h.calls k call hcall).taken r m htaken
  obtain ⟨hk, -⟩ := List.getElem?_eq_some_iff.mp hcall
  rw [hm, received_add_givenUp, List.length_take]
  omega

/-- One more call has returned. -/
theorem calls_append {before : List (Call ι α Rep V)} {call : Call ι α Rep V}
    (h : ∀ k earlier, before[k]? = some earlier →
      CallOk p sent answers (received (before.take k)) earlier)
    (hcall : CallOk p sent answers (received before) call) {k : ℕ}
    {call' : Call ι α Rep V} (hk : (before ++ [call])[k]? = some call') :
    CallOk p sent answers (received ((before ++ [call]).take k)) call' := by
  rcases lt_trichotomy k before.length with hlt | rfl | hlt
  · rw [List.getElem?_append_left hlt] at hk
    rw [List.take_append_of_le_length hlt.le]
    exact h k call' hk
  · rw [List.getElem?_append_right (Nat.le_refl _), Nat.sub_self] at hk
    cases hk
    rw [List.take_left]
    exact hcall
  · have hbeyond : (before ++ [call]).length ≤ k := by
      rw [List.length_append, List.length_singleton]
      omega
    rw [List.getElem?_eq_none hbeyond] at hk
    cases hk

/-- Who waits after one caller has stopped waiting waited before. -/
theorem waiting_update_none [DecidableEq ι] {waiting : ι → Option (ℕ × α)} {i j : ι}
    {w : ℕ × α} (h : Function.update waiting i none j = some w) : waiting j = some w := by
  by_cases hj : j = i
  · subst hj
    rw [Function.update_self] at h
    cases h
  · rwa [Function.update_of_ne hj] at h

/-- A call returns, after its caller has taken a reply or given up. -/
theorem Accounted.finish [DecidableEq ι] {c : Callers ι σ α Req Rep V} (h : Accounted p c)
    {link : Link σ Req Rep} (hordered : Ordered p.handle link)
    (hasked : link.asked = c.link.asked) (hanswers : link.answers = c.link.answers)
    {call : Call ι α Rep V} (hcall : CallOk p c.sent c.link.answers (received c.calls) call)
    (htaken : link.taken = c.link.taken + if call.taken.isSome then 1 else 0) :
    Accounted p (Callers.finish { c with link := link } call) where
  ordered := hordered
  sent := hasked ▸ h.sent
  waiting j n a hj := h.waiting j n a (waiting_update_none hj)
  taken := by
    rw [Callers.finish]
    dsimp only
    rw [received_append, htaken, h.taken]
  calls k call' hk := by
    rw [Callers.finish] at hk ⊢
    dsimp only at hk ⊢
    rw [hanswers]
    exact calls_append h.calls hcall hk

/-- **Every move keeps the accounts.** -/
theorem Steps.accounted [DecidableEq ι] {c c' : Callers ι σ α Req Rep V}
    (hsteps : Steps p c c') (h : Accounted p c) : Accounted p c' := by
  cases hsteps with
  | @send i a q hwaiting hencode =>
      have hprefix : c.sent <+: c.sent ++ [(i, a)] := List.prefix_append ..
      refine ⟨h.ordered.send q, List.rel_append h.sent (.cons hencode .nil), ?_, h.taken, ?_⟩
      · intro j n b hj
        rw [Callers.send] at hj ⊢
        dsimp only at hj ⊢
        by_cases hji : j = i
        · subst hji
          rw [Function.update_self] at hj
          cases hj
          rw [List.getElem?_append_right (Nat.le_refl _), Nat.sub_self]
          rfl
        · rw [Function.update_of_ne hji] at hj
          exact getElem?_of_prefix hprefix (h.waiting j n b hj)
      · intro k call hk
        exact (h.calls k call hk).mono hprefix (List.prefix_refl _)
  | @serve e link hserve =>
      obtain ⟨hordered, hasked, htaken, r, hanswers⟩ := h.ordered.serve hserve
      refine ⟨hordered, ?_, h.waiting, htaken.trans h.taken, ?_⟩
      · dsimp only
        rw [hasked]
        exact h.sent
      · intro k call hk
        have hprefix : c.link.answers <+: link.answers := hanswers ▸ List.prefix_append ..
        exact (h.calls k call hk).mono (List.prefix_refl _) hprefix
  | work s =>
      exact ⟨⟨h.ordered.requests_eq, h.ordered.replies_eq, h.ordered.answers_le,
        h.ordered.taken_le, h.ordered.answered⟩, h.sent, h.waiting, h.taken, h.calls⟩
  | @receive i b n m a r v link hwaiting htake hdecode =>
      obtain ⟨hordered, hm, hanswer, hasked, hanswers, htaken⟩ := h.ordered.take htake
      refine h.finish hordered hasked hanswers ⟨h.waiting i n a hwaiting, ?_, ?_⟩ ?_
      · intro r' m' hr
        cases hr
        rw [hm]
        exact ⟨h.taken, hanswer, b, hdecode⟩
      · intro hnone
        cases hnone
      · exact htaken
  | @giveUp i n a hwaiting =>
      refine h.finish h.ordered rfl rfl ⟨h.waiting i n a hwaiting, ?_, ?_⟩ rfl
      · intro r m hr
        cases hr
      · intro _
        rfl

/-- **Replies are taken in turn.** In every run, everything is accounted for. -/
theorem run_accounted [DecidableEq ι] {s : σ} {moves : List (Move ι α β ε υ)}
    {c : Callers ι σ α Req Rep V} {os : List Unit}
    (hrun : run (step p) (Callers.init s) moves = .ok (c, os)) : Accounted p c :=
  run_invariant (fun _ _ _ _ h _ hstep => (steps_of_step hstep).accounted h) (accounted_init s)
    (along_of_forall (fun _ _ => trivial) _ _) hrun

/-- The requests of an only caller: every call sent one, in order, and if it waits then
for the reply to the last. -/
structure OneByOne (c : Callers Unit σ α Req Rep V) : Prop where
  sent : c.sent.length = c.calls.length + if (c.waiting ()).isSome then 1 else 0
  waiting : ∀ n a, c.waiting () = some (n, a) → n = c.calls.length
  calls : ∀ (k : ℕ) (call : Call Unit α Rep V), c.calls[k]? = some call → call.number = k

/-- The next call of an only caller has returned. -/
theorem OneByOne.finish {c : Callers Unit σ α Req Rep V} (h : OneByOne c) {n : ℕ} {a : α}
    (hwaiting : c.waiting () = some (n, a)) (link : Link σ Req Rep) (taken : Option (Rep × ℕ))
    (v : V) : OneByOne (Callers.finish { c with link := link } ⟨(), a, n, taken, v⟩) := by
  have hn := h.waiting n a hwaiting
  have hsent := h.sent
  rw [hwaiting] at hsent
  have hnone : (Callers.finish { c with link := link } ⟨(), a, n, taken, v⟩).waiting () = none := by
    rw [Callers.finish]
    exact Function.update_self () none c.waiting
  refine ⟨?_, fun n' a' hw => ?_, fun k call hk => ?_⟩
  · rw [hnone, Callers.finish]
    dsimp only
    rw [hsent, List.length_append, List.length_singleton]
    rfl
  · rw [hnone] at hw
    cases hw
  · rw [Callers.finish] at hk
    dsimp only at hk
    by_cases hlt : k < c.calls.length
    · rw [List.getElem?_append_left hlt] at hk
      exact h.calls k call hk
    · rw [List.getElem?_append_right (not_lt.mp hlt)] at hk
      obtain ⟨hk0, -⟩ := List.getElem?_eq_some_iff.mp hk
      rw [List.length_singleton] at hk0
      have heq : k = c.calls.length := by omega
      rw [heq, Nat.sub_self] at hk
      cases hk
      exact hn.trans heq.symm

theorem oneByOne_init (s : σ) : OneByOne (Callers.init s : Callers Unit σ α Req Rep V) where
  sent := rfl
  waiting n a hw := by cases hw
  calls k call hk := by cases hk

/-- Every move of an only caller keeps them in order. -/
theorem Steps.oneByOne {c c' : Callers Unit σ α Req Rep V} (hsteps : Steps p c c')
    (h : OneByOne c) : OneByOne c' := by
  cases hsteps with
  | @send i a q hwaiting hencode =>
      have hsent := h.sent
      rw [hwaiting] at hsent
      have hsome : (c.send i a q).waiting () = some (c.sent.length, a) := by
        rw [Callers.send]
        exact Function.update_self () _ c.waiting
      refine ⟨?_, fun n a' hw => ?_, h.calls⟩
      · rw [hsome, Callers.send]
        dsimp only
        rw [List.length_append, List.length_singleton, hsent]
        rfl
      · rw [hsome] at hw
        cases hw
        exact hsent
  | serve hserve => exact ⟨h.sent, h.waiting, h.calls⟩
  | work s => exact ⟨h.sent, h.waiting, h.calls⟩
  | @receive i b n m a r v link hwaiting htake hdecode => exact h.finish hwaiting link _ _
  | giveUp hwaiting => exact h.finish hwaiting c.link _ _

/-- **An only caller** sends one request after the other: the `k`-th call sent the `k`-th
request. -/
theorem run_oneByOne {s : σ} {moves : List (Move Unit α β ε υ)}
    {c : Callers Unit σ α Req Rep V} {os : List Unit}
    (hrun : run (step p) (Callers.init s) moves = .ok (c, os)) : OneByOne c :=
  run_invariant (fun _ _ _ _ h _ hstep => (steps_of_step hstep).oneByOne h)
    (oneByOne_init s) (along_of_forall (fun _ _ => trivial) _ _) hrun

end Invariants

end RequestReply
