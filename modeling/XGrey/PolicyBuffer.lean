import Mathlib.Data.List.Infix
import Mathlib.Logic.Relation
import XGrey.FailOpen
import XGrey.Text

/-!
# The Buffer of the Policy Requests

How the Postfix client reads its requests (`process_request` of `postfix/pfc.c`). A request
is a sequence of lines with a name and a value each, and an empty line behind them. They
come from standard input in whatever pieces `read` delivers; what has been read and not yet
been used waits in a buffer of `BUFSIZ` bytes, which `process_request` keeps from call to
call.

The buffer is modelled with all its bytes, also those behind the part that is in use: a
value is copied up to the next zero byte, wherever that is.

## Main results

* `policyTurn_inv`: what a turn of the loop can do to the buffer.
* `leads_atLine`: whatever the pieces are, the loop gets to the next line of the input if it
  fits into the buffer, with nothing lost.
* `policyTurn_blank`, `policyTurn_attribute`: what the loop then does with an empty line, and
  with a line that has a name and a value.
-/

open CRuntime

namespace XGrey

/-! ### The loop -/

/-- The static variables of `process_request`, with the pieces of the input that the calls
of `read` will deliver. An empty piece is the end of the input or a failure, after which
`process_request` does the same. -/
structure PolicyInput where
  buffer : List UInt8
  bufsiz : ℕ
  refill : Bool
  chunks : List (List UInt8)

/-- The strings of a request that are of interest: `request`, `from`, `to` and `ip`. -/
structure PolicyAttrs where
  request : List UInt8
  sender : List UInt8
  recipient : List UInt8
  ip : List UInt8
  deriving DecidableEq

/-- The strings at the beginning of a request. -/
def PolicyAttrs.empty : PolicyAttrs := { request := [], sender := [], recipient := [], ip := [] }

/-- Set the string that a name stands for, if it is one of interest. -/
def PolicyAttrs.set (a : PolicyAttrs) (name value : List UInt8) : PolicyAttrs :=
  if name = ascii "request" then { a with request := value }
  else if name = ascii "sender" then { a with sender := value }
  else if name = ascii "recipient" then { a with recipient := value }
  else if name = ascii "client_address" then { a with ip := value }
  else a

/-- `memchr`: the place of a character in the first `n` bytes of some memory. -/
def memchr (mem : List UInt8) (c : UInt8) (n : ℕ) : Option ℕ :=
  if c ∈ mem.take n then some ((mem.take n).idxOf c) else none

/-- What a turn of the loop of `process_request` comes to. -/
inductive Turn
  /-- another turn -/
  | again (s : PolicyInput) (a : PolicyAttrs)
  /-- the end of a request, which is answered -/
  | answer (s : PolicyInput) (a : PolicyAttrs)
  /-- the return of 0 -/
  | stop

/-- The pieces that are left when up to `n` bytes of the first one have been read. -/
def chunksBehind (n : ℕ) (chunk : List UInt8) (chunks : List (List UInt8)) :
    List (List UInt8) :=
  if chunk.drop n = [] then chunks else chunk.drop n :: chunks

/-- The refilling of a buffer of `N` bytes. A full buffer is an error. -/
def policyRead (N : ℕ) (s : PolicyInput) : Option PolicyInput :=
  if s.bufsiz = N then none
  else
    match s.chunks with
    | [] => none
    | chunk :: chunks =>
        let data := chunk.take (N - s.bufsiz)
        if data = [] then none
        else
          some
            { buffer := s.buffer.take s.bufsiz ++ data ++ s.buffer.drop (s.bufsiz + data.length)
              bufsiz := s.bufsiz + data.length
              refill := false
              chunks := chunksBehind (N - s.bufsiz) chunk chunks }

/-- A turn of the loop. Refilling the buffer is a turn of its own here; the rest of the loop
follows in the next one, since `refill` is not set any more. -/
def policyTurn (N : ℕ) (s : PolicyInput) (a : PolicyAttrs) : Exec Turn :=
  if s.refill then
    match policyRead N s with
    | none => .ok .stop
    | some s => .ok (.again s a)
  else
    match memchr s.buffer 10 s.bufsiz with
    | none => .ok (.again { s with refill := true } a)
    | some p =>
        if p = 0 then do
          let buffer ← memmove s.buffer 0 1 (s.bufsiz - 1)
          .ok (.answer { s with buffer := buffer, bufsiz := s.bufsiz - 1 } a)
        else
          match memchr s.buffer 61 s.bufsiz with
          | none => .ok .stop
          | some v => do
              let buffer := (s.buffer.set p 0).set v 0
              let name ← cstring buffer
              let value ← cstring (buffer.drop (v + 1))
              let buffer ← memmove buffer 0 (p + 1) (s.bufsiz - (p + 1))
              .ok (.again { s with buffer := buffer, bufsiz := s.bufsiz - (p + 1) }
                (a.set name value))

/-- How much there is to do: bytes to read, then bytes to look through, then the refilling
of the buffer. -/
def PolicyInput.todo (s : PolicyInput) : ℕ :=
  4 * s.chunks.flatten.length + 2 * s.bufsiz + if s.refill then 0 else 1

theorem memchr_eq_none {mem : List UInt8} {c : UInt8} {n : ℕ} (h : c ∉ mem.take n) :
    memchr mem c n = none := if_neg h

/-- What is found is the first occurrence. -/
theorem memchr_eq_some {mem front back : List UInt8} {c : UInt8} {n : ℕ}
    (h : mem.take n = front ++ c :: back) (hfront : c ∉ front) :
    memchr mem c n = some front.length := by
  rw [memchr, h, if_pos (by simp), List.idxOf_append_of_notMem hfront, List.idxOf_cons_self,
    add_zero]

theorem lt_of_memchr {mem : List UInt8} {c : UInt8} {n p : ℕ} (h : memchr mem c n = some p) :
    p < n := by
  rw [memchr] at h
  split_ifs at h with hmem
  cases h
  have hlt := List.idxOf_lt_length_of_mem hmem
  have hlen := List.length_take_le n mem
  omega

/-- What `policyRead` does. -/
theorem policyRead_eq_some {N : ℕ} {s s' : PolicyInput} (h : policyRead N s = some s') :
    s.bufsiz ≠ N ∧ ∃ chunk chunks, s.chunks = chunk :: chunks ∧
      chunk.take (N - s.bufsiz) ≠ [] ∧
      s'.buffer = s.buffer.take s.bufsiz ++ chunk.take (N - s.bufsiz) ++
        s.buffer.drop (s.bufsiz + (chunk.take (N - s.bufsiz)).length) ∧
      s'.bufsiz = s.bufsiz + (chunk.take (N - s.bufsiz)).length ∧ s'.refill = false ∧
      s'.chunks = chunksBehind (N - s.bufsiz) chunk chunks := by
  rw [policyRead] at h
  split_ifs at h with hfull
  cases hchunks : s.chunks with
  | nil =>
      rw [hchunks] at h
      cases h
  | cons chunk chunks =>
      rw [hchunks] at h
      dsimp only at h
      split_ifs at h with hdata
      cases h
      exact ⟨hfull, chunk, chunks, rfl, hdata, rfl, rfl, rfl, rfl⟩

/-- Nothing gets lost between the pieces. -/
theorem flatten_chunksBehind (n : ℕ) (chunk : List UInt8) (chunks : List (List UInt8)) :
    chunk.take n ++ (chunksBehind n chunk chunks).flatten = chunk ++ chunks.flatten := by
  rw [chunksBehind]
  split_ifs with h
  · conv_rhs => rw [← List.take_append_drop n chunk, h, List.append_nil]
  · rw [List.flatten_cons, ← List.append_assoc, List.take_append_drop]

/-- The variables behind a turn. -/
def Turn.next : Turn → Option PolicyInput
  | .again s _ => some s
  | .answer s _ => some s
  | .stop => none

/-- **What a turn does** to the variables: it refills the buffer, or asks for that, or takes
a line off the buffer. -/
theorem policyTurn_inv {N : ℕ} {s s' : PolicyInput} {a : PolicyAttrs} {t : Turn}
    (h : policyTurn N s a = .ok t) (hnext : t.next = some s') :
    (s.refill = true ∧ policyRead N s = some s') ∨
      (s.refill = false ∧ 10 ∉ s.buffer.take s.bufsiz ∧ s' = { s with refill := true }) ∨
      (s.refill = false ∧ ∃ p buffer, p < s.bufsiz ∧ buffer.length = s.buffer.length ∧
        s' = { s with buffer := buffer, bufsiz := s.bufsiz - (p + 1) }) := by
  rw [policyTurn] at h
  cases hrefill : s.refill with
  | true =>
      rw [hrefill, if_pos rfl] at h
      cases hread : policyRead N s with
      | none =>
          rw [hread] at h
          cases h
          cases hnext
      | some s₁ =>
          rw [hread] at h
          cases h
          exact Or.inl ⟨rfl, hnext⟩
  | false =>
      rw [hrefill, if_neg Bool.false_ne_true] at h
      refine Or.inr ?_
      cases hp : memchr s.buffer 10 s.bufsiz with
      | none =>
          rw [hp] at h
          cases h
          cases hnext
          refine Or.inl ⟨rfl, fun hmem => ?_, rfl⟩
          rw [memchr, if_pos hmem] at hp
          cases hp
      | some p =>
          rw [hp] at h
          dsimp only at h
          refine Or.inr ⟨rfl, p, ?_⟩
          by_cases hzero : p = 0
          · rw [if_pos hzero] at h
            obtain ⟨buffer, hmove, h⟩ := bind_eq_ok.mp h
            cases h
            cases hnext
            exact ⟨buffer, lt_of_memchr hp, length_memmove hmove, by rw [hzero]⟩
          · rw [if_neg hzero] at h
            cases hv : memchr s.buffer 61 s.bufsiz with
            | none =>
                rw [hv] at h
                cases h
                cases hnext
            | some v =>
                rw [hv] at h
                obtain ⟨name, -, h⟩ := bind_eq_ok.mp h
                obtain ⟨value, -, h⟩ := bind_eq_ok.mp h
                obtain ⟨buffer, hmove, h⟩ := bind_eq_ok.mp h
                cases h
                cases hnext
                have hlen := length_memmove hmove
                rw [List.length_set, List.length_set] at hlen
                exact ⟨buffer, lt_of_memchr hp, hlen, rfl⟩

/-- After a turn that is not the last there is less to do. -/
theorem todo_of_again {N : ℕ} {s s' : PolicyInput} {a a' : PolicyAttrs}
    (h : policyTurn N s a = .ok (.again s' a')) : s'.todo < s.todo := by
  rcases policyTurn_inv h rfl with
    ⟨hrefill, hread⟩ | ⟨hrefill, -, rfl⟩ | ⟨hrefill, p, buffer, hp, -, rfl⟩
  · obtain ⟨-, chunk, chunks, hchunks, hdata, -, hbufsiz, hrefill', hchunks'⟩ :=
      policyRead_eq_some hread
    have hlen := congrArg List.length (flatten_chunksBehind (N - s.bufsiz) chunk chunks)
    have hpos := List.length_pos_iff.mpr hdata
    rw [List.length_append, ← hchunks', ← List.flatten_cons, ← hchunks] at hlen
    simp only [PolicyInput.todo, hrefill, hrefill', hbufsiz, if_true, Bool.false_eq_true,
      if_false]
    omega
  · simp [PolicyInput.todo, hrefill]
  · simp only [PolicyInput.todo]
    omega

/-- The loop. -/
def processLoop (N : ℕ) (s : PolicyInput) (a : PolicyAttrs) :
    Exec (Option (PolicyInput × PolicyAttrs)) :=
  match _h : policyTurn N s a with
  | .error e => .error e
  | .ok .stop => .ok none
  | .ok (.answer s a) => .ok (some (s, a))
  | .ok (.again s a) => processLoop N s a
termination_by s.todo
decreasing_by exact todo_of_again _h

/-- `m_dunno`, `m_reject` and `m_defer`. -/
def MailAnswer.text : MailAnswer → List UInt8
  | .pass => ascii "action=dunno\n\n"
  | .refuse => ascii "action=reject I reject your reality and substitute my own\n\n"
  | .defer => ascii "action=defer_if_permit Service temporarily unavailable\n\n"

/-- What `check_greylist` and then `write` return, if they are called. -/
structure Reaction where
  response : ℤ
  written : ℤ

/-- What a request comes to: the strings that `check_greylist` is called with, and what is
written to standard output. -/
structure Exchange where
  query : PolicyAttrs
  reply : List UInt8
  deriving DecidableEq

/-- `process_request`, for which the return of 0 is no exchange. -/
def processRequest (ndebug : Bool) (N : ℕ) (s : PolicyInput) (r : Reaction) :
    Exec (PolicyInput × Option Exchange) := do
  match ← processLoop N s PolicyAttrs.empty with
  | none => .ok (s, none)
  | some (s, a) => do
      let answer ← mailAnswer ndebug r.response
      cassert ndebug (r.written = answer.text.length)
      .ok (s, some { query := a, reply := answer.text })

theorem processLoop_again {N : ℕ} {s s' : PolicyInput} {a a' : PolicyAttrs}
    (h : policyTurn N s a = .ok (.again s' a')) : processLoop N s a = processLoop N s' a' := by
  rw [processLoop]
  split <;> rename_i h' <;> rw [h] at h' <;> cases h'
  rfl

theorem processLoop_answer {N : ℕ} {s s' : PolicyInput} {a a' : PolicyAttrs}
    (h : policyTurn N s a = .ok (.answer s' a')) : processLoop N s a = .ok (some (s', a')) := by
  rw [processLoop]
  split <;> rename_i h' <;> rw [h] at h' <;> cases h'
  rfl

theorem processLoop_stop {N : ℕ} {s : PolicyInput} {a : PolicyAttrs}
    (h : policyTurn N s a = .ok .stop) : processLoop N s a = .ok none := by
  rw [processLoop]
  split <;> rename_i h' <;> rw [h] at h' <;> cases h'

/-! ### What is in the buffer -/

/-- The bytes that have been read and not yet been used. -/
def PolicyInput.live (s : PolicyInput) : List UInt8 := s.buffer.take s.bufsiz

/-- The bytes that have not yet been used. -/
def PolicyInput.pending (s : PolicyInput) : List UInt8 := s.live ++ s.chunks.flatten

/-- The buffer is one of `N` bytes, what is in use fits into it, no piece is the end of the
input, and the buffer is refilled only if there is no line in it. -/
structure PolicyInput.Ok (N : ℕ) (s : PolicyInput) : Prop where
  length_buffer : s.buffer.length = N
  bufsiz_le : s.bufsiz ≤ N
  chunks_ne : ∀ chunk ∈ s.chunks, chunk ≠ []
  no_line : s.refill = true → 10 ∉ s.live

/-- The static variables at the start. -/
def PolicyInput.start (N : ℕ) (chunks : List (List UInt8)) : PolicyInput :=
  { buffer := List.replicate N 0, bufsiz := 0, refill := true, chunks := chunks }

theorem PolicyInput.ok_start (N : ℕ) {chunks : List (List UInt8)}
    (h : ∀ chunk ∈ chunks, chunk ≠ []) : (PolicyInput.start N chunks).Ok N where
  length_buffer := List.length_replicate
  bufsiz_le := Nat.zero_le N
  chunks_ne := h
  no_line := fun _ => List.not_mem_nil

@[simp] theorem PolicyInput.pending_start (N : ℕ) (chunks : List (List UInt8)) :
    (PolicyInput.start N chunks).pending = chunks.flatten := rfl

section Turns

variable {N : ℕ} {s : PolicyInput} {a : PolicyAttrs}

theorem PolicyInput.Ok.length_live (h : s.Ok N) : s.live.length = s.bufsiz := by
  rw [PolicyInput.live, List.length_take, h.length_buffer, Nat.min_eq_left h.bufsiz_le]

/-- **Refilling the buffer** moves bytes from the input to the buffer. -/
theorem PolicyInput.Ok.read (h : s.Ok N) {s' : PolicyInput} (hread : policyRead N s = some s') :
    s'.Ok N ∧ s'.pending = s.pending := by
  obtain ⟨-, chunk, chunks, hchunks, -, hbuffer, hbufsiz, hrefill, hchunks'⟩ :=
    policyRead_eq_some hread
  have hroom := List.length_take_le (N - s.bufsiz) chunk
  have hfits := h.bufsiz_le
  have hlive : (s.live ++ chunk.take (N - s.bufsiz)).length = s'.bufsiz := by
    rw [List.length_append, h.length_live, hbufsiz]
  refine ⟨⟨?_, by omega, ?_, ?_⟩, ?_⟩
  · rw [hbuffer, List.length_append, ← PolicyInput.live, hlive, List.length_drop,
      h.length_buffer]
    omega
  · intro c hc
    rw [hchunks', chunksBehind] at hc
    split_ifs at hc with hrest
    · exact h.chunks_ne c (by simp [hchunks, hc])
    · rcases List.mem_cons.mp hc with rfl | hc
      · exact hrest
      · exact h.chunks_ne c (by simp [hchunks, hc])
  · intro hset
    rw [hrefill] at hset
    cases hset
  · rw [PolicyInput.pending, PolicyInput.live, hbuffer, ← PolicyInput.live,
      List.take_left' hlive, hchunks', List.append_assoc, flatten_chunksBehind,
      PolicyInput.pending, hchunks, List.flatten_cons]

/-- There is something to read as long as there is room and the input has not ended. -/
theorem exists_policyRead (h : s.Ok N) (hroom : s.bufsiz < N) (hinput : s.chunks ≠ []) :
    ∃ s', policyRead N s = some s' := by
  obtain ⟨chunk, chunks, hchunks⟩ := List.exists_cons_of_ne_nil hinput
  have hdata : chunk.take (N - s.bufsiz) ≠ [] := by
    rw [Ne, List.take_eq_nil_iff, not_or]
    exact ⟨by omega, h.chunks_ne chunk (by simp [hchunks])⟩
  rw [policyRead, if_neg (by omega), hchunks]
  exact ⟨_, if_neg hdata⟩

/-- Taking bytes off the buffer keeps it as it should be. -/
theorem PolicyInput.Ok.taken (h : s.Ok N) (hrefill : s.refill = false) {buffer : List UInt8}
    (hbuffer : buffer.length = N) (k : ℕ) :
    ({ s with buffer := buffer, bufsiz := s.bufsiz - k } : PolicyInput).Ok N := by
  refine ⟨hbuffer, (Nat.sub_le _ _).trans h.bufsiz_le, h.chunks_ne, fun hset => ?_⟩
  rw [hrefill] at hset
  cases hset

/-- **Every turn** keeps the buffer as it should be. -/
theorem PolicyInput.Ok.turn (h : s.Ok N) {t : Turn} {s' : PolicyInput}
    (hturn : policyTurn N s a = .ok t) (hnext : t.next = some s') : s'.Ok N := by
  rcases policyTurn_inv hturn hnext with
    ⟨-, hread⟩ | ⟨-, hline, rfl⟩ | ⟨hrefill, p, buffer, -, hbuffer, rfl⟩
  · exact (h.read hread).1
  · exact ⟨h.length_buffer, h.bufsiz_le, h.chunks_ne, fun _ => hline⟩
  · exact h.taken hrefill (hbuffer.trans h.length_buffer) (p + 1)

/-- The loop is about to look at a line, with some bytes behind it in the buffer. -/
structure AtLine (s : PolicyInput) (front more : List UInt8) : Prop where
  refill : s.refill = false
  live_eq : s.live = front ++ 10 :: more
  front_line : 10 ∉ front

/-- **A turn** comes upon a line, or it goes on without using any byte, or it ends the
program, because no line that fits into the buffer is to come. -/
theorem policyTurn_cases (h : s.Ok N) (a : PolicyAttrs) :
    (∃ front more, AtLine s front more) ∨
      (∃ s', policyTurn N s a = .ok (.again s' a) ∧ s'.Ok N ∧ s'.pending = s.pending) ∨
      (policyTurn N s a = .ok .stop ∧ 10 ∉ s.pending.take N) := by
  by_cases hline : 10 ∈ s.live
  · have hrefill : s.refill = false := by
      rw [← Bool.not_eq_true]
      exact fun hrefill => h.no_line hrefill hline
    obtain ⟨front, more, hlive, hfront⟩ := List.eq_append_cons_of_mem hline
    exact Or.inl ⟨front, more, hrefill, hlive, hfront⟩
  refine Or.inr ?_
  cases hrefill : s.refill with
  | false =>
      refine Or.inl ⟨{ s with refill := true }, ?_,
        ⟨h.length_buffer, h.bufsiz_le, h.chunks_ne, fun _ => hline⟩, rfl⟩
      rw [policyTurn, hrefill, if_neg Bool.false_ne_true, memchr_eq_none hline]
  | true =>
      by_cases hfull : s.bufsiz = N
      · refine Or.inr ⟨?_, ?_⟩
        · rw [policyTurn, if_pos hrefill, policyRead, if_pos hfull]
        · rw [PolicyInput.pending, List.take_left' (h.length_live.trans hfull)]
          exact hline
      by_cases hend : s.chunks = []
      · refine Or.inr ⟨?_, fun hmem => hline ?_⟩
        · rw [policyTurn, if_pos hrefill, policyRead, if_neg hfull, hend]
        · rw [PolicyInput.pending, hend, List.flatten_nil, List.append_nil] at hmem
          exact List.mem_of_mem_take hmem
      have hfits := h.bufsiz_le
      obtain ⟨s', hread⟩ := exists_policyRead h (by omega) hend
      obtain ⟨hok, hsame⟩ := h.read hread
      exact Or.inl ⟨s', by rw [policyTurn, if_pos hrefill, hread], hok, hsame⟩

/-! ### Getting to a line -/

/-- The loop gets from one state to another. -/
def Leads (N : ℕ) : PolicyInput × PolicyAttrs → PolicyInput × PolicyAttrs → Prop :=
  Relation.ReflTransGen fun x y => policyTurn N x.1 x.2 = .ok (.again y.1 y.2)

theorem processLoop_of_leads {x y : PolicyInput × PolicyAttrs} (h : Leads N x y) :
    processLoop N x.1 x.2 = processLoop N y.1 y.2 := by
  induction h with
  | refl => rfl
  | tail _ hturn ih => exact ih.trans (processLoop_again hturn)

/-- **The loop gets to the next line** of the input, if the line fits into the buffer. -/
theorem leads_atLine (h : s.Ok N) {front rest : List UInt8} (hfront : 10 ∉ front)
    (hpending : s.pending = front ++ 10 :: rest) (hfits : front.length < N)
    (a : PolicyAttrs) :
    ∃ s' more, Leads N (s, a) (s', a) ∧ s'.Ok N ∧ AtLine s' front more ∧
      more ++ s'.chunks.flatten = rest := by
  induction htodo : s.todo using Nat.strongRecOn generalizing s with
  | ind m ih =>
      rcases policyTurn_cases h a with ⟨front', more, hat⟩ | ⟨s₁, hturn, hok, hsame⟩ | ⟨-, hnone⟩
      · rw [PolicyInput.pending, hat.live_eq, List.append_assoc, List.cons_append] at hpending
        obtain ⟨rfl, hrest⟩ := eq_of_append_cons_eq hpending hat.front_line hfront
        exact ⟨s, more, .refl, h, hat, hrest⟩
      · obtain ⟨s', more, hleads, hs'⟩ :=
          ih _ (htodo ▸ todo_of_again hturn) hok (hsame.trans hpending) rfl
        exact ⟨s', more, .head hturn hleads, hs'⟩
      · refine absurd ?_ hnone
        obtain ⟨k, hk⟩ : ∃ k, N - front.length = k + 1 := ⟨N - front.length - 1, by omega⟩
        rw [hpending, List.take_append, hk, List.take_succ_cons]
        simp

/-- **Without another line** that fits into the buffer the loop ends with the program. -/
theorem processLoop_no_line (h : s.Ok N) (hline : 10 ∉ s.pending.take N) (a : PolicyAttrs) :
    processLoop N s a = .ok none := by
  induction htodo : s.todo using Nat.strongRecOn generalizing s with
  | ind m ih =>
      rcases policyTurn_cases h a with ⟨front, more, hat⟩ | ⟨s₁, hturn, hok, hsame⟩ | ⟨hstop, -⟩
      · refine absurd ?_ hline
        have hfits := h.bufsiz_le
        rw [← h.length_live] at hfits
        rw [PolicyInput.pending, List.take_append, List.take_of_length_le hfits, hat.live_eq]
        simp
      · rw [processLoop_again hturn]
        exact ih _ (htodo ▸ todo_of_again hturn) hok (hsame ▸ hline) rfl
      · exact processLoop_stop hstop

/-! ### What is done with a line -/

/-- Moving what follows a line to the front. -/
theorem memmove_front (line more stale : List UInt8) :
    ∃ buffer, memmove (line ++ (more ++ stale)) 0 line.length more.length = .ok buffer ∧
      buffer.length = (line ++ (more ++ stale)).length ∧ buffer.take more.length = more := by
  have hlen : (line ++ (more ++ stale)).length = line.length + (more.length + stale.length) := by
    rw [List.length_append, List.length_append]
  have hmove : memmove (line ++ (more ++ stale)) 0 line.length more.length =
      .ok (more ++ (line ++ (more ++ stale)).drop more.length) := by
    rw [memmove_eq (by omega) (by omega), List.drop_left, List.take_left, List.take_zero,
      List.nil_append, Nat.zero_add]
  exact ⟨_, hmove, length_memmove hmove, List.take_left⟩

/-- The string in front of the first of two zero bytes. -/
theorem cstring_front (front back : List UInt8) :
    cstring (front ++ 0 :: back) = .ok (front.takeWhile (· ≠ 0)) := by
  rw [cstring_eq (by simp), List.takeWhile_append]
  split_ifs with hlen
  · rw [List.takeWhile_cons_of_neg (by simp), List.append_nil,
      (List.takeWhile_prefix _).eq_of_length hlen]
  · rfl

variable {front more : List UInt8}

theorem AtLine.memchr (h : AtLine s front more) :
    memchr s.buffer 10 s.bufsiz = some front.length := memchr_eq_some h.live_eq h.front_line

theorem AtLine.length_le (hs : s.Ok N) (h : AtLine s front more) :
    front.length + 1 + more.length = s.bufsiz := by
  have hlen := hs.length_live
  rw [h.live_eq, List.length_append, List.length_cons] at hlen
  omega

/-- The buffer in front of a line. -/
theorem AtLine.buffer_eq (h : AtLine s front more) :
    s.buffer = front ++ 10 :: (more ++ s.buffer.drop s.bufsiz) := by
  conv_lhs => rw [← List.take_append_drop s.bufsiz s.buffer, ← PolicyInput.live, h.live_eq]
  rw [List.append_assoc, List.cons_append]

/-- **An empty line** ends a request. -/
theorem policyTurn_blank (hs : s.Ok N) (h : AtLine s [] more) (a : PolicyAttrs) :
    ∃ s', policyTurn N s a = .ok (.answer s' a) ∧ s'.Ok N ∧
      s'.pending = more ++ s.chunks.flatten := by
  have hlen := h.length_le hs
  rw [List.length_nil] at hlen
  have hmore : s.bufsiz - 1 = more.length := by omega
  obtain ⟨buffer, hmove, hsame, hfront⟩ := memmove_front [10] more (s.buffer.drop s.bufsiz)
  have hbuffer : s.buffer = [10] ++ (more ++ s.buffer.drop s.bufsiz) := h.buffer_eq
  rw [← hbuffer, ← hmore, List.length_singleton] at hmove
  rw [← hbuffer] at hsame
  refine ⟨{ s with buffer := buffer, bufsiz := s.bufsiz - 1 }, ?_,
    hs.taken h.refill (hsame.trans hs.length_buffer) 1, ?_⟩
  · rw [policyTurn, h.refill, if_neg Bool.false_ne_true, h.memchr]
    dsimp only [List.length_nil]
    rw [if_pos rfl, hmove, ok_bind]
  · rw [PolicyInput.pending, PolicyInput.live]
    dsimp only
    rw [hmore, hfront]

/-- The two zero bytes that part a line. -/
theorem set_line (name value rest : List UInt8) :
    ((name ++ 61 :: value ++ 10 :: rest).set (name ++ 61 :: value).length 0).set
      name.length 0 = name ++ 0 :: (value ++ 0 :: rest) := by
  rw [List.set_append_right _ _ le_rfl, Nat.sub_self, List.set_cons_zero, List.append_assoc,
    List.set_append_right _ _ le_rfl, Nat.sub_self, List.cons_append, List.set_cons_zero]

/-- **A line with a name and a value** sets what the name stands for. Both end at a zero
byte if there is one in them. -/
theorem policyTurn_attribute (hs : s.Ok N) {name value : List UInt8}
    (h : AtLine s (name ++ 61 :: value) more) (hname : 61 ∉ name) (a : PolicyAttrs) :
    ∃ s', policyTurn N s a = .ok (.again s'
        (a.set (name.takeWhile (· ≠ 0)) (value.takeWhile (· ≠ 0)))) ∧
      s'.Ok N ∧ s'.pending = more ++ s.chunks.flatten := by
  have hlen := h.length_le hs
  have hmore : s.bufsiz - ((name ++ 61 :: value).length + 1) = more.length := by omega
  have hequals : memchr s.buffer 61 s.bufsiz = some name.length := by
    have hparted : s.buffer.take s.bufsiz = name ++ 61 :: (value ++ 10 :: more) := by
      rw [← PolicyInput.live, h.live_eq, List.append_assoc, List.cons_append]
    exact memchr_eq_some hparted hname
  -- the buffer with the name and the value made strings
  have hset : (s.buffer.set (name ++ 61 :: value).length 0).set name.length 0 =
      name ++ 0 :: (value ++ 0 :: (more ++ s.buffer.drop s.bufsiz)) := by
    conv_lhs => rw [h.buffer_eq]
    exact set_line name value _
  have hvalue : (name ++ 0 :: (value ++ 0 :: (more ++ s.buffer.drop s.bufsiz))).drop
      (name.length + 1) = value ++ 0 :: (more ++ s.buffer.drop s.bufsiz) := by
    rw [List.drop_append, Nat.add_sub_cancel_left, List.drop_eq_nil_of_le (by omega)]
    rfl
  have hline : name ++ 0 :: (value ++ 0 :: (more ++ s.buffer.drop s.bufsiz)) =
      (name ++ 0 :: (value ++ [0])) ++ (more ++ s.buffer.drop s.bufsiz) := by simp
  have hlineLen : (name ++ 0 :: (value ++ [0])).length = (name ++ 61 :: value).length + 1 := by
    simp
    omega
  obtain ⟨buffer, hmove, hsame, hfront⟩ :=
    memmove_front (name ++ 0 :: (value ++ [0])) more (s.buffer.drop s.bufsiz)
  rw [← hline, hlineLen, ← hmore] at hmove
  rw [← hline, ← hset, List.length_set, List.length_set, hs.length_buffer] at hsame
  have hplace : ¬ (name ++ 61 :: value).length = 0 := by simp
  refine ⟨{ s with
      buffer := buffer
      bufsiz := s.bufsiz - ((name ++ 61 :: value).length + 1) }, ?_,
    hs.taken h.refill hsame _, ?_⟩
  · rw [policyTurn, h.refill, if_neg Bool.false_ne_true, h.memchr]
    dsimp only
    rw [if_neg hplace, hequals]
    dsimp only
    rw [hset, cstring_front, ok_bind, hvalue, cstring_front, ok_bind, hmove, ok_bind]
  · rw [PolicyInput.pending, PolicyInput.live]
    dsimp only
    rw [hmore, hfront]

/-- **A line without a name and a value** ends the program if what else is in the buffer has
no such character either, which they are parted by. -/
theorem policyTurn_bad (h : AtLine s front more) (hnil : front ≠ []) (hfront : 61 ∉ front)
    (a : PolicyAttrs) : policyTurn N s a = .ok .stop ↔ 61 ∉ more := by
  have hplace : ¬ front.length = 0 := fun hzero => hnil (List.length_eq_zero_iff.mp hzero)
  have hlive : 61 ∈ s.live ↔ 61 ∈ more := by
    rw [h.live_eq, List.mem_append, List.mem_cons]
    simp [hfront]
  rw [policyTurn, h.refill, if_neg Bool.false_ne_true, h.memchr]
  dsimp only
  rw [if_neg hplace]
  by_cases hmore : 61 ∈ more
  · refine iff_of_false (fun hstop => ?_) (not_not.mpr hmore)
    obtain ⟨front', back, hlive', hfront'⟩ := List.eq_append_cons_of_mem (hlive.mpr hmore)
    rw [memchr_eq_some hlive' hfront'] at hstop
    obtain ⟨name, -, hstop⟩ := bind_eq_ok.mp hstop
    obtain ⟨value, -, hstop⟩ := bind_eq_ok.mp hstop
    obtain ⟨buffer, -, hstop⟩ := bind_eq_ok.mp hstop
    cases hstop
  · rw [memchr_eq_none fun hmem => hmore (hlive.mp hmem)]
    exact iff_of_true rfl hmore

end Turns

end XGrey
