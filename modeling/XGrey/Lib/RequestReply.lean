import Mathlib.Data.List.Basic
import Mathlib.Algebra.Order.Group.Nat

/-!
# Requests and Replies

A server behind two queues: requests wait in one until the server handles them, and its
replies wait in the other until somebody takes them. Messages are neither lost nor
reordered, but may wait for as long as they like.

Every message carries the number of its request. The number is bookkeeping of the model;
whoever takes a reply does not see it. Beside the queues the link keeps what was asked
and what was answered, so that a statement about a message that has left its queue can
still name it.

## Main results

* `Ordered.send`, `Ordered.serve`, `Ordered.take`: the queues hold what was asked and not
  answered, and what was answered and not taken, in order. In particular a reply that is
  taken answers the request whose number is that of the replies taken before.
-/

namespace RequestReply

variable {σ ε Req Rep : Type*}

/-- A server, the messages on their way, and the history. -/
structure Link (σ Req Rep : Type*) where
  server : σ
  /-- the requests on their way to the server -/
  requests : List (Req × ℕ)
  /-- the replies on their way back -/
  replies : List (Rep × ℕ)
  /-- what the server was asked, in order -/
  asked : List Req
  /-- what it answered, in order -/
  answers : List Rep
  /-- how many replies were taken -/
  taken : ℕ

namespace Link

/-- A link over which nothing was sent. -/
def init (s : σ) : Link σ Req Rep where
  server := s
  requests := []
  replies := []
  asked := []
  answers := []
  taken := 0

/-- A request is sent. -/
def send (l : Link σ Req Rep) (q : Req) : Link σ Req Rep :=
  { l with
    requests := l.requests ++ [(q, l.asked.length)]
    asked := l.asked ++ [q] }

/-- The server handles the next request and answers it. -/
def serve (handle : σ → Req → Option (σ × Rep)) (l : Link σ Req Rep) :
    Option (Link σ Req Rep) :=
  match l.requests with
  | [] => none
  | (q, n) :: requests =>
      (handle l.server q).map fun r =>
        { l with
          server := r.1
          requests := requests
          replies := l.replies ++ [(r.2, n)]
          answers := l.answers ++ [r.2] }

/-- The next reply is taken. -/
def take (l : Link σ Req Rep) : Option ((Rep × ℕ) × Link σ Req Rep) :=
  match l.replies with
  | [] => none
  | reply :: replies => some (reply, { l with replies := replies, taken := l.taken + 1 })

end Link

/-- The messages are in order: waiting are the requests that were not answered and the
replies that were not taken, each with its number, and every reply is one that the server
can give to its request. -/
structure Ordered (handle : ε → σ → Req → Option (σ × Rep)) (l : Link σ Req Rep) : Prop where
  requests_eq : l.requests = l.asked.zipIdx.drop l.answers.length
  replies_eq : l.replies = l.answers.zipIdx.drop l.taken
  answers_le : l.answers.length ≤ l.asked.length
  taken_le : l.taken ≤ l.answers.length
  answered : ∀ (k : ℕ) (r : Rep), l.answers[k]? = some r →
    ∃ q, l.asked[k]? = some q ∧ ∃ e s s', handle e s q = some (s', r)

/-- Appending to a list whose front has been dropped. -/
theorem drop_zipIdx_append {α : Type*} {l : List α} {n : ℕ} (h : n ≤ l.length) (a : α) :
    (l ++ [a]).zipIdx.drop n = l.zipIdx.drop n ++ [(a, l.length)] := by
  rw [List.zipIdx_append, List.drop_append_of_le_length (by simpa using h)]
  simp

/-- What stands in front of a list whose front has been dropped. -/
theorem eq_of_drop_zipIdx {α : Type*} {l : List α} {n k : ℕ} {a : α} {rest : List (α × ℕ)}
    (h : (a, k) :: rest = l.zipIdx.drop n) :
    k = n ∧ l[n]? = some a ∧ rest = l.zipIdx.drop (n + 1) := by
  have hn : n < l.zipIdx.length := by
    by_contra hle
    rw [List.drop_eq_nil_of_le (not_lt.mp hle)] at h
    cases h
  rw [List.drop_eq_getElem_cons hn, List.getElem_zipIdx] at h
  obtain ⟨hpair, hrest⟩ := List.cons.inj h
  obtain ⟨ha, hk⟩ := Prod.mk.inj hpair
  refine ⟨by omega, ?_, hrest⟩
  rw [ha]
  exact List.getElem?_eq_getElem _

section Steps

variable {handle : ε → σ → Req → Option (σ × Rep)} {l l' : Link σ Req Rep}

theorem ordered_init (s : σ) : Ordered handle (Link.init s : Link σ Req Rep) :=
  ⟨rfl, rfl, Nat.le_refl _, Nat.le_refl _, by simp [Link.init]⟩

/-- Sending keeps the order. -/
theorem Ordered.send (h : Ordered handle l) (q : Req) : Ordered handle (l.send q) where
  requests_eq := by
    rw [Link.send]
    dsimp only
    rw [h.requests_eq, drop_zipIdx_append h.answers_le]
  replies_eq := h.replies_eq
  answers_le := by
    have hle := h.answers_le
    rw [Link.send]
    dsimp only
    rw [List.length_append]
    omega
  taken_le := h.taken_le
  answered k r hr := by
    obtain ⟨q', hq', hhandled⟩ := h.answered k r hr
    refine ⟨q', ?_, hhandled⟩
    have hk := (List.getElem?_eq_some_iff.mp hq').1
    rw [Link.send]
    dsimp only
    rw [List.getElem?_append_left hk, hq']

/-- **Answering keeps the order**: the reply is that to the oldest request that was not
answered. -/
theorem Ordered.serve (h : Ordered handle l) {e : ε} (hserve : l.serve (handle e) = some l') :
    Ordered handle l' ∧ l'.asked = l.asked ∧ l'.taken = l.taken ∧
      ∃ r, l'.answers = l.answers ++ [r] := by
  rw [Link.serve] at hserve
  cases hrequests : l.requests with
  | nil =>
      rw [hrequests] at hserve
      cases hserve
  | cons request requests =>
      obtain ⟨q, n⟩ := request
      rw [hrequests] at hserve
      obtain ⟨⟨s, r⟩, hhandle, rfl⟩ := Option.map_eq_some_iff.mp hserve
      obtain ⟨hn, hq, hrest⟩ := eq_of_drop_zipIdx (hrequests ▸ h.requests_eq)
      have hlen := (List.getElem?_eq_some_iff.mp hq).1
      refine ⟨⟨?_, ?_, ?_, ?_, ?_⟩, rfl, rfl, r, rfl⟩
      · dsimp only
        rw [hrest, List.length_append, List.length_singleton]
      · dsimp only
        rw [h.replies_eq, drop_zipIdx_append h.taken_le, hn]
      · dsimp only
        rw [List.length_append, List.length_singleton]
        omega
      · have hle := h.taken_le
        dsimp only
        rw [List.length_append]
        omega
      · intro k r' hr'
        dsimp only at hr' ⊢
        rcases lt_trichotomy k l.answers.length with hk | rfl | hk
        · rw [List.getElem?_append_left hk] at hr'
          exact h.answered k r' hr'
        · rw [List.getElem?_append_right (Nat.le_refl _), Nat.sub_self] at hr'
          cases hr'
          exact ⟨q, hq, e, l.server, s, hhandle⟩
        · have hbeyond : (l.answers ++ [r]).length ≤ k := by
            rw [List.length_append, List.length_singleton]
            omega
          rw [List.getElem?_eq_none hbeyond] at hr'
          cases hr'

/-- **Taking a reply keeps the order**, and the reply is that to the request whose number
is that of the replies taken before. -/
theorem Ordered.take (h : Ordered handle l) {r : Rep} {n : ℕ}
    (htake : l.take = some ((r, n), l')) :
    Ordered handle l' ∧ n = l.taken ∧ l.answers[l.taken]? = some r ∧ l'.asked = l.asked ∧
      l'.answers = l.answers ∧ l'.taken = l.taken + 1 := by
  rw [Link.take] at htake
  cases hreplies : l.replies with
  | nil =>
      rw [hreplies] at htake
      cases htake
  | cons reply replies =>
      rw [hreplies] at htake
      cases htake
      obtain ⟨hn, hr, hrest⟩ := eq_of_drop_zipIdx (hreplies ▸ h.replies_eq)
      have hlen := (List.getElem?_eq_some_iff.mp hr).1
      exact ⟨⟨h.requests_eq, hrest, h.answers_le, hlen, h.answered⟩, hn, hr, rfl, rfl, rfl⟩

end Steps

end RequestReply
