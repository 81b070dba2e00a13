import XGrey.Lib.SharedLink
import XGrey.Responses

/-!
# Clients at Work

The clients and the server over time. Both clients send a request over a datagram socket
and take the next datagram that comes for the reply to it: the Postfix client one request
after the other, with an alarm that ends the waiting, and the Sendmail client for all
connections over one socket, each in a thread of its own.

A response does not say which request it answers, and nothing empties the socket before a
request is sent. Which response a call gets is therefore a matter of counting.

## Main results

* `run_pfc`: a call of the Postfix client gets the response to its own request exactly if
  no earlier call timed out.
* `run_smc`: a call of the Sendmail client gets the response to the request whose number
  is that of the responses received before.
-/

open CRuntime StepRun RequestReply

namespace XGrey

/-! ### The server at the other end -/

/-- What the environment adds when the server answers: the time, the time at a sweep,
whether a report could be generated, and the bytes of a response that nobody writes. -/
structure ServeEnv where
  now : ℤ
  clock : ℤ
  canReport : Bool
  pad : UInt8 × UInt8

/-- The datagram that a packet is for the server. -/
def ServeEnv.datagram (env : ServeEnv) (packet : List UInt8) : Datagram where
  data := packet
  now := env.now
  clock := env.clock
  canReport := env.canReport

/-- The server, with its packet buffer, takes a packet and sends what it has to send for
it. -/
def serverHandle (cfg : Config) (env : ServeEnv) (s : Server × List UInt8)
    (packet : List UInt8) : Option ((Server × List UInt8) × List UInt8) :=
  match gldRecv cfg s.1 s.2 (env.datagram packet) with
  | .ok ([out], s') =>
      match sendPacket cfg [env.pad.1, env.pad.2] out with
      | .ok data => some (s', data)
      | .error _ => none
  | _ => none

/-- What the server does besides. -/
inductive ServerWork
  /-- A datagram from somebody else, whose answer goes elsewhere. -/
  | datagram (d : Datagram)
  | sigalrm (now : ℤ)
  | sigusr2 (now : ℤ)

/-- The server does it, unless it fails. -/
def serverWork (cfg : Config) (work : ServerWork) (s : Server × List UInt8) :
    Option (Server × List UInt8) :=
  match work with
  | .datagram d => (gldRecv cfg s.1 s.2 d).toOption.map Prod.snd
  | .sigalrm now => (handleSigalrm cfg s.1 now).toOption.map fun srv => (srv, s.2)
  | .sigusr2 now => (handleSigusr2 cfg s.1 now).toOption.map fun srv => (srv, s.2)

/-! ### The two clients -/

/-- What `check_greylist` is called with: the memory that the address and the two texts
lie in. -/
structure CheckArgs where
  ip : List UInt8
  sender : List UInt8
  recipient : List UInt8
  deriving DecidableEq

/-- `check_greylist` of the Postfix client, up to the sending and from the receiving on. If
the alarm goes off, the verdict is `ACCEPT`. -/
def pfcService (cfg : Config) : Service (Server × List UInt8) CheckArgs (List UInt8) ServeEnv
    ServerWork (List UInt8) (List UInt8) ℤ Fault where
  encode a := pfcRequest cfg.ndebug cfg.secret a.ip a.sender a.recipient
  handle := serverHandle cfg
  work := serverWork cfg
  decode := pfcVerdict cfg
  fallback := Ift.accept

/-- What the callbacks of the Sendmail client return. -/
inductive Sfsistat
  | accept | reject | tempfail
  deriving DecidableEq

/-- The end of `mf_rcpt_to`, on what `check_greylist` returned. -/
def mfRcptTo (ndebug : Bool) (response : ℤ) : Exec Sfsistat :=
  if response = Ift.accept then .ok .accept
  else if response = Ift.reject then .ok .reject
  else if response = Ift.greylist then .ok .tempfail
  else do
    cassert ndebug False
    .ok .accept

/-- `mf_rcpt_to` of the Sendmail client, with its `check_greylist`. -/
def smcService (cfg : Config) : Service (Server × List UInt8) CheckArgs (List UInt8) ServeEnv
    ServerWork (List UInt8) (List UInt8) Sfsistat Fault where
  encode a := smcRequest cfg.ndebug cfg.secret a.ip a.sender a.recipient
  handle := serverHandle cfg
  work := serverWork cfg
  decode buf data := smcVerdict cfg buf data >>= mfRcptTo cfg.ndebug
  fallback := .accept

/-! ### Responses -/

/-- The server made a response for a packet and sent a datagram with it. -/
def Answers (cfg : Config) (packet data : List UInt8) (r : Reply) : Prop :=
  ∃ (env : ServeEnv) (srv : Server) (buf : List UInt8) (s' : Server × List UInt8),
    gldRecv cfg srv buf (env.datagram packet) = .ok ([.reply r], s') ∧
      sendPacket cfg [env.pad.1, env.pad.2] (.reply r) = .ok data

/-- What the server sends for the packet of a client is a response that both clients
understand. -/
theorem serverHandle_answers {cfg : Config} {env : ServeEnv} {s s' : Server × List UInt8}
    {packet data : List UInt8} (hpacket : ClientPacket cfg packet)
    (h : serverHandle cfg env s packet = some (s', data)) :
    ∃ r : Reply, Answers cfg packet data r ∧
      ∀ (accepts : ℕ → Bool), accepts version = true → ∀ buf,
        clientVerdict cfg accepts buf data = .ok (r.response % 65536) := by
  rw [serverHandle] at h
  split at h
  · rename_i out t hrecv
    split at h
    · rename_i sent hsend
      cases h
      obtain ⟨r, hr, hmta, htype⟩ := gldRecv_clientPacket hpacket hrecv
      cases hr
      refine ⟨r, ⟨env, s.1, s.2, s', hrecv, hsend⟩, fun accepts haccepts buf => ?_⟩
      exact clientVerdict_reply cfg haccepts hmta htype rfl hsend buf
    · cases h
  · cases h

section Runs

variable {ι V : Type*} {cfg : Config}
  {p : Service (Server × List UInt8) CheckArgs (List UInt8) ServeEnv ServerWork (List UInt8)
    (List UInt8) V Fault}

/-- What a call received in a run is what the server sent for the request with the same
number. -/
theorem received_answers (hhandle : p.handle = serverHandle cfg)
    (hencode : ∀ a packet, p.encode a = .ok packet → ClientPacket cfg packet)
    {c : Callers ι (Server × List UInt8) CheckArgs (List UInt8) (List UInt8) V}
    (h : Accounted p c) {n : ℕ} {data : List UInt8} (hanswer : c.link.answers[n]? = some data) :
    ∃ i a packet r, c.sent[n]? = some (i, a) ∧ p.encode a = .ok packet ∧
      Answers cfg packet data r ∧
        ∀ (accepts : ℕ → Bool), accepts version = true → ∀ buf,
          clientVerdict cfg accepts buf data = .ok (r.response % 65536) := by
  obtain ⟨packet, hasked, env, s, s', hserve⟩ := h.ordered.answered n data hanswer
  have hlt : n < c.sent.length := by
    rw [h.sent.length_eq]
    exact (List.getElem?_eq_some_iff.mp hasked).1
  have hsent : c.sent[n]? = some c.sent[n] := List.getElem?_eq_getElem hlt
  obtain ⟨packet', hpacket', hasked'⟩ := h.asked hsent
  obtain rfl : packet' = packet := Option.some.inj (hasked'.symm.trans hasked)
  rw [hhandle] at hserve
  obtain ⟨r, hr⟩ := serverHandle_answers (hencode _ _ hpacket') hserve
  exact ⟨_, _, packet', r, hsent, hpacket', hr⟩

end Runs

/-- **The Postfix client.** Take any run of it: requests one after the other, alarms and
answers at any time. A datagram that its `k`-th call receives is what the server sent for
the request number `m`, the number of datagrams received before, and the verdict is the
response in it. This is the call's own request exactly if no earlier call timed out. -/
theorem run_pfc (cfg : Config) (s : Server × List UInt8)
    (moves : List (Move Unit CheckArgs (List UInt8) ServeEnv ServerWork))
    (c : Callers Unit (Server × List UInt8) CheckArgs (List UInt8) (List UInt8) ℤ)
    (os : List Unit) (hrun : run (step (pfcService cfg)) (Callers.init s) moves = .ok (c, os))
    (k : ℕ) (call : Call Unit CheckArgs (List UInt8) ℤ) (hcall : c.calls[k]? = some call)
    (data : List UInt8) (m : ℕ) (htaken : call.taken = some (data, m)) :
    c.sent[k]? = some ((), call.arg) ∧
      (∃ a packet r, c.sent[m]? = some ((), a) ∧
        pfcRequest cfg.ndebug cfg.secret a.ip a.sender a.recipient = .ok packet ∧
        c.link.answers[m]? = some data ∧ Answers cfg packet data r ∧
        call.result = r.response % 65536) ∧
      m + givenUp (c.calls.take k) = k ∧
      (m = k ↔ ∀ earlier ∈ c.calls.take k, earlier.taken ≠ none) := by
  have haccounted := run_accounted hrun
  have hnumber := (run_oneByOne hrun).calls k call hcall
  obtain ⟨hown, htook, -⟩ := haccounted.calls k call hcall
  obtain ⟨-, hanswer, buf, hdecode⟩ := htook data m htaken
  obtain ⟨⟨⟩, a, packet, r, hsent, hpacket, hanswers, hverdict⟩ :=
    received_answers rfl (fun _ _ => clientPacket_pfcRequest) haccounted hanswer
  have hresult : call.result = r.response % 65536 := by
    change pfcVerdict cfg buf data = .ok call.result at hdecode
    rw [pfcVerdict, hverdict _ (decide_eq_true rfl)] at hdecode
    exact (Except.ok.inj hdecode).symm
  have hcount := haccounted.taken_add_givenUp hcall htaken
  refine ⟨hnumber ▸ hown, ⟨a, packet, r, hsent, hpacket, hanswer, hanswers, hresult⟩,
    hcount, ?_⟩
  rw [← givenUp_eq_zero]
  omega

/-- A request from `10.0.0.1` with one letter for the sender, and the recipient `b`. -/
def letterArgs (ip : List UInt8) (sender : UInt8) : CheckArgs where
  ip := ip
  sender := [sender, 0]
  recipient := [98, 0]

/-- An answer at a time. -/
def answerAt (now : ℤ) : ServeEnv where
  now := now
  clock := now
  canReport := false
  pad := (0, 0)

/-- The server at startup, with an empty packet buffer. -/
def serverAtStart : Server × List UInt8 :=
  (Server.init (Config.default false) 0, List.replicate 1500 0)

/-- The same request twice, the second one after the embargo. The first times out, and the
answer to it comes late. -/
def lateMoves : List (Move Unit CheckArgs (List UInt8) ServeEnv ServerWork) :=
  [.send () (letterArgs (dotted 10 0 0 1 ++ [0]) 97), .giveUp (), .serve (answerAt 0),
    .send () (letterArgs (dotted 10 0 0 1 ++ [0]) 97), .serve (answerAt 2000), .receive () []]

/-- What the second call receives then, what it returns, and what it would have returned
for the answer to its own request. -/
theorem exists_lateMoves :
    ∃ c os call data own,
      run (step (pfcService (Config.default false))) (Callers.init serverAtStart) lateMoves =
        .ok (c, os) ∧
      c.calls[1]? = some call ∧ call.taken = some (data, 0) ∧ call.number = 1 ∧
      call.result = Ift.greylist ∧ c.link.answers[1]? = some own ∧
      pfcVerdict (Config.default false) [] own = .ok Ift.accept := by
  obtain ⟨⟨c, os⟩, hrun, htest⟩ := exists_of_okAnd
    (run (step (pfcService (Config.default false))) (Callers.init serverAtStart) lateMoves)
    (fun r => decide (
      (r.1.calls[1]?.map fun call : Call Unit CheckArgs (List UInt8) ℤ =>
        (call.taken.map Prod.snd, call.number, call.result)) = some (some 0, 1, Ift.greylist) ∧
      (r.1.link.answers[1]?.map (pfcVerdict (Config.default false) [])) =
        some (.ok Ift.accept)))
    (by decide +kernel)
  obtain ⟨hcall, hown⟩ := of_decide_eq_true htest
  obtain ⟨call, hget, hvalues⟩ := Option.map_eq_some_iff.mp hcall
  obtain ⟨own, hanswer, hverdict⟩ := Option.map_eq_some_iff.mp hown
  obtain ⟨htaken, hnumber, hresult⟩ := by simpa only [Prod.mk.injEq] using hvalues
  obtain ⟨⟨data, m⟩, htaken, rfl⟩ := Option.map_eq_some_iff.mp htaken
  exact ⟨c, os, call, data, own, hrun, hget, htaken, hnumber, hresult, hanswer, hverdict⟩

/-- The second call of that run. -/
theorem run_pfc_second :
    ∃ c os call data,
      run (step (pfcService (Config.default false))) (Callers.init serverAtStart) lateMoves =
        .ok (c, os) ∧
      c.calls[1]? = some call ∧ call.taken = some (data, 0) ∧
      c.sent[1]? = some ((), call.arg) ∧ 0 + givenUp (c.calls.take 1) = 1 := by
  obtain ⟨c, os, call, data, -, hrun, hcall, htaken, -⟩ := exists_lateMoves
  obtain ⟨hown, -, hcount, -⟩ := run_pfc (Config.default false) serverAtStart lateMoves c os
    hrun 1 call hcall data 0 htaken
  exact ⟨c, os, call, data, hrun, hcall, htaken, hown, hcount⟩

/-- **A late answer.** The second call returns the verdict on the first request, although
the server has accepted the second. -/
theorem run_pfc_late :
    ∃ c os call data own,
      run (step (pfcService (Config.default false))) (Callers.init serverAtStart) lateMoves =
        .ok (c, os) ∧
      c.calls[1]? = some call ∧ call.taken = some (data, 0) ∧ call.number = 1 ∧
      call.result = Ift.greylist ∧ c.link.answers[1]? = some own ∧
      pfcVerdict (Config.default false) [] own = .ok Ift.accept :=
  exists_lateMoves

/-- **The Sendmail client.** Take any run of it, over any number of connections. A datagram
that its `k`-th call to return receives is what the server sent for the request number
`m`, the number of datagrams received before (`k`, if no call timed out), and the result
is that of the response in it. This is the call's own request exactly if as many requests
had been sent before it, by whatever connection. -/
theorem run_smc (cfg : Config) (s : Server × List UInt8)
    (moves : List (Move ℕ CheckArgs (List UInt8) ServeEnv ServerWork))
    (c : Callers ℕ (Server × List UInt8) CheckArgs (List UInt8) (List UInt8) Sfsistat)
    (os : List Unit) (hrun : run (step (smcService cfg)) (Callers.init s) moves = .ok (c, os))
    (k : ℕ) (call : Call ℕ CheckArgs (List UInt8) Sfsistat) (hcall : c.calls[k]? = some call)
    (data : List UInt8) (m : ℕ) (htaken : call.taken = some (data, m)) :
    c.sent[call.number]? = some (call.caller, call.arg) ∧
      (∃ i a packet r, c.sent[m]? = some (i, a) ∧
        smcRequest cfg.ndebug cfg.secret a.ip a.sender a.recipient = .ok packet ∧
        c.link.answers[m]? = some data ∧ Answers cfg packet data r ∧
        mfRcptTo cfg.ndebug (r.response % 65536) = .ok call.result) ∧
      m + givenUp (c.calls.take k) = k ∧
      (m = call.number ↔ call.number + givenUp (c.calls.take k) = k) := by
  have haccounted := run_accounted hrun
  obtain ⟨hown, htook, -⟩ := haccounted.calls k call hcall
  obtain ⟨-, hanswer, buf, hdecode⟩ := htook data m htaken
  obtain ⟨i, a, packet, r, hsent, hpacket, hanswers, hverdict⟩ :=
    received_answers rfl (fun _ _ => clientPacket_smcRequest) haccounted hanswer
  have hresult : mfRcptTo cfg.ndebug (r.response % 65536) = .ok call.result := by
    change smcVerdict cfg buf data >>= mfRcptTo cfg.ndebug = .ok call.result at hdecode
    rwa [smcVerdict, hverdict _ (decide_eq_true (Nat.le_refl _)), ok_bind] at hdecode
  have hcount := haccounted.taken_add_givenUp hcall htaken
  refine ⟨hown, ⟨i, a, packet, r, hsent, hpacket, hanswer, hanswers, hresult⟩, hcount, ?_⟩
  omega

/-- Two connections. The second has waited out its embargo; then both send, both are
answered, and the second is faster to receive. -/
def swappedMoves : List (Move ℕ CheckArgs (List UInt8) ServeEnv ServerWork) :=
  [.send 2 (letterArgs [10, 0, 0, 1] 97), .serve (answerAt 0), .receive 2 [],
    .send 1 (letterArgs [10, 0, 0, 1] 99), .send 2 (letterArgs [10, 0, 0, 1] 97),
    .serve (answerAt 2000), .serve (answerAt 2000), .receive 2 [], .receive 1 []]

/-- What the faster connection receives, what it returns, and what it would have returned
for the answer to its own request. -/
theorem exists_swappedMoves :
    ∃ c os call data own,
      run (step (smcService (Config.default false))) (Callers.init serverAtStart)
        swappedMoves = .ok (c, os) ∧
      c.calls[1]? = some call ∧ call.taken = some (data, 1) ∧ call.caller = 2 ∧
      call.number = 2 ∧ call.result = .tempfail ∧ c.link.answers[2]? = some own ∧
      smcVerdict (Config.default false) [] own = .ok Ift.accept := by
  obtain ⟨⟨c, os⟩, hrun, htest⟩ := exists_of_okAnd
    (run (step (smcService (Config.default false))) (Callers.init serverAtStart) swappedMoves)
    (fun r => decide (
      (r.1.calls[1]?.map fun call : Call ℕ CheckArgs (List UInt8) Sfsistat =>
        (call.taken.map Prod.snd, call.caller, call.number, call.result)) =
          some (some 1, 2, 2, .tempfail) ∧
      (r.1.link.answers[2]?.map (smcVerdict (Config.default false) [])) =
        some (.ok Ift.accept)))
    (by decide +kernel)
  obtain ⟨hcall, hown⟩ := of_decide_eq_true htest
  obtain ⟨call, hget, hvalues⟩ := Option.map_eq_some_iff.mp hcall
  obtain ⟨own, hanswer, hverdict⟩ := Option.map_eq_some_iff.mp hown
  obtain ⟨htaken, hcaller, hnumber, hresult⟩ := by simpa only [Prod.mk.injEq] using hvalues
  obtain ⟨⟨data, m⟩, htaken, rfl⟩ := Option.map_eq_some_iff.mp htaken
  exact ⟨c, os, call, data, own, hrun, hget, htaken, hcaller, hnumber, hresult, hanswer,
    hverdict⟩

/-- The faster connection of that run. -/
theorem run_smc_faster :
    ∃ c os call data,
      run (step (smcService (Config.default false))) (Callers.init serverAtStart)
        swappedMoves = .ok (c, os) ∧
      c.calls[1]? = some call ∧ call.taken = some (data, 1) ∧
      c.sent[call.number]? = some (call.caller, call.arg) ∧
      1 + givenUp (c.calls.take 1) = 1 := by
  obtain ⟨c, os, call, data, -, hrun, hcall, htaken, -⟩ := exists_swappedMoves
  obtain ⟨hown, -, hcount, -⟩ := run_smc (Config.default false) serverAtStart swappedMoves c os
    hrun 1 call hcall data 1 htaken
  exact ⟨c, os, call, data, hrun, hcall, htaken, hown, hcount⟩

/-- **Swapped answers.** The second connection returns the verdict on the request of the
first, although the server has accepted its own. -/
theorem run_smc_swapped :
    ∃ c os call data own,
      run (step (smcService (Config.default false))) (Callers.init serverAtStart)
        swappedMoves = .ok (c, os) ∧
      c.calls[1]? = some call ∧ call.taken = some (data, 1) ∧ call.caller = 2 ∧
      call.number = 2 ∧ call.result = .tempfail ∧ c.link.answers[2]? = some own ∧
      smcVerdict (Config.default false) [] own = .ok Ift.accept :=
  exists_swappedMoves

end XGrey
