import XGrey.PolicyRequests
import XGrey.SmcSender
import XGrey.ServerRun
import XGrey.StaleBytes
import XGrey.StoreSafety

/-!
# Verdicts for the Mail Servers

The way of a question and back: a mail server asks its client, the client asks the greylist daemon
over the network, and the mail server is told the verdict. When no datagram is lost or late, the
mail server could as well have asked the daemon itself: each question becomes one request, with the
address and the two texts of the question as far as they fit, and its verdict is the answer.

## Main results

* `run_policyRound`: Postfix, for any stream of policy requests.
* `run_milterRound`: Sendmail, for all recipients of a mail.
-/

open CRuntime StepRun

namespace XGrey

/-! ### One call of `check_greylist` -/

/-- What the environment adds to a call: what it adds when the server answers, and what the buffer
of the client held before. -/
structure CallEnv extends ServeEnv where
  data : List UInt8

/-- A call of `check_greylist` over a network that loses nothing. Without an answer, the alarm goes
off. -/
def remoteCheck (cfg : Config) (encode : Exec (List UInt8))
    (decode : List UInt8 → List UInt8 → Exec ℤ) (env : CallEnv) (s : Server × List UInt8) :
    Exec (ℤ × Server × List UInt8) := do
  let packet ← encode
  let (outs, s') ← gldRecv cfg s.1 s.2 (env.datagram packet)
  match outs with
  | [out] => do
      let data ← sendPacket cfg [env.pad.1, env.pad.2] out
      let v ← decode env.data data
      .ok (v, s')
  | _ => .ok (Ift.accept, s')

/-- A request for a verdict on an address of four bytes and two texts. -/
structure Request.AsksFor (cfg : Config) (env : CallEnv) (ip sender recipient : List UInt8)
    (req : Request) : Prop where
  accepts : req.Accepts
  now_eq : req.now = env.now
  clock_eq : req.clock = env.clock
  ip_eq : (req.tuple cfg).ip.toList = ip ++ List.replicate 12 0
  sender_eq : (req.tuple cfg).fromBytes = sender.take 107
  recipient_eq : (req.tuple cfg).toBytes = recipient.take 107

/-- The server keeps no more of a text than the clients send. -/
theorem Request.AsksFor.of_take {cfg : Config} {env : CallEnv} {ip sender recipient : List UInt8}
    {req : Request} (h : req.AsksFor cfg env ip (sender.take 200) (recipient.take 200)) :
    req.AsksFor cfg env ip sender recipient := by
  obtain ⟨hacc, hnow, hclock, hip, hsender, hrecipient⟩ := h
  rw [List.take_take] at hsender hrecipient
  exact ⟨hacc, hnow, hclock, hip, hsender, hrecipient⟩

section Call

variable {cfg : Config} {packet ip sender recipient : List UInt8}

/-- **The server** takes the packet of a client for a request for a verdict. -/
theorem gldRecv_check (hpacket : ClientPacket cfg packet) (srv : Server) (buf : List UInt8)
    {d : Datagram} (hd : d.data = packet) :
    gldRecv cfg srv buf d = (do
      let (out, srv, req) ← typeGreylist cfg srv ((d.request buf).swapField 8) .greylist
        .greylistResp
      .ok (out, srv, req.packet)) := by
  obtain ⟨ip, sender, recipient, hip, hsender, hrecipient, rfl⟩ := hpacket
  have hver := verified_append cfg (requestBody mtaPostfix Cmd.greylist.code 4 sender.length
    recipient.length (ip ++ sender ++ recipient))
  generalize (checksum cfg.secret _).toNat = crc at hd hver
  rw [← hd] at hver
  have hversion : ntohs d.data 4 = version := by
    rw [hd, requestBody]
    simp only [List.append_assoc]
    exact ntohs_field (htonl crc) rfl (by decide) _
  have htype : ntohs d.data 8 = Cmd.greylist.code := by
    rw [hd, requestBody]
    simp only [List.append_assoc]
    exact ntohs_field (htonl crc ++ (htons version ++ htons mtaPostfix)) rfl (by decide) _
  have hlen : d.data.length = 20 + sender.length + recipient.length := by
    rw [hd]
    simp [requestBody, hip]
    omega
  rw [gldRecv_type srv buf (by omega) (by omega) hver hversion.le, htype, Cmd.ofCode_code]
  rfl

/-- The packet asks for a verdict on what it delivers, and handling it is an event of the server. -/
theorem gldRecv_asks (hpacket : ClientPacket cfg packet)
    (hdelivers : Delivers cfg packet ip sender recipient) (env : CallEnv)
    (s : Server × List UInt8) :
    ∃ req, Request.AsksFor cfg env ip sender recipient req ∧ ∀ srv' outs,
      eventStep cfg s.1 (.check false req) = .ok (srv', outs) ↔
        ∃ buf', gldRecv cfg s.1 s.2 (env.datagram packet) = .ok (outs, srv', buf') := by
  obtain ⟨crc, req', t', -, -, hsane, hip, hsender, hrecipient⟩ :=
    hdelivers s.2 env.now env.clock env.canReport
  change greylistSanitizeReq cfg ((Datagram.request s.2 (env.datagram packet)).swapField 8) = _
    at hsane
  have hacc : ((Datagram.request s.2 (env.datagram packet)).swapField 8).Accepts := by
    by_contra hacc
    rw [greylistSanitizeReq_of_not_accepts cfg hacc] at hsane
    cases hsane
  rw [greylistSanitizeReq_of_accepts cfg hacc] at hsane
  cases hsane
  refine ⟨_, ⟨hacc, rfl, rfl, hip, hsender, hrecipient⟩, fun srv' outs => ?_⟩
  rw [gldRecv_check hpacket s.1 s.2 rfl, eventStep]
  change (typeGreylist cfg s.1 _ .greylist .greylistResp >>= _) = _ ↔ _
  cases typeGreylist cfg s.1 ((Datagram.request s.2 (env.datagram packet)).swapField 8) .greylist
      .greylistResp with
  | error e =>
      constructor
      · rintro ⟨⟩
      · rintro ⟨_, ⟨⟩⟩
  | ok r =>
      obtain ⟨outs', srv₁, req₁⟩ := r
      constructor
      · rintro ⟨⟩
        exact ⟨_, rfl⟩
      · rintro ⟨_, ⟨⟩⟩
        rfl

/-- **A call that the server answers** gets the answer. -/
theorem remoteCheck_of {encode : Exec (List UInt8)} (hencode : encode = .ok packet)
    (hpacket : ClientPacket cfg packet) (hdelivers : Delivers cfg packet ip sender recipient)
    (accepts : ℕ → Bool) (haccepts : accepts version = true) (env : CallEnv)
    (s : Server × List UInt8) :
    ∃ req, Request.AsksFor cfg env ip sender recipient req ∧
      ∀ srv' r, eventStep cfg s.1 (.check false req) = .ok (srv', [.reply r]) →
        ∃ buf', remoteCheck cfg encode (clientVerdict cfg accepts) env s =
          .ok (r.response % 65536, (srv', buf')) := by
  obtain ⟨req, hasks, hrecv⟩ := gldRecv_asks hpacket hdelivers env s
  refine ⟨req, hasks, fun srv' r hstep => ?_⟩
  obtain ⟨buf', hok⟩ := (hrecv srv' [.reply r]).mp hstep
  obtain ⟨r', hr, hmta, htype⟩ := gldRecv_clientPacket hpacket hok
  cases hr
  obtain ⟨data, hsend⟩ : ∃ data, sendPacket cfg [env.pad.1, env.pad.2] (.reply r) = .ok data := by
    have hlen : (htonl 0 ++ (Output.reply r).body [env.pad.1, env.pad.2]).length = 16 := by
      simp [Output.body, replyBody, hmta]
    exact ⟨_, signPacket_eq (by omega) (by omega) cfg.secret_ne⟩
  refine ⟨buf', ?_⟩
  rw [remoteCheck, hencode, ok_bind, hok, ok_bind]
  dsimp only
  rw [hsend, ok_bind, clientVerdict_reply cfg haccepts hmta htype rfl hsend, ok_bind]

/-! ### Postfix -/

/-- The Postfix client, and the server behind it with its packet buffer. -/
structure PolicyPath where
  input : PolicyInput
  server : Server × List UInt8

/-- The texts that `check_greylist` is called with, in their memory. -/
def PolicyAttrs.encode (cfg : Config) (a : PolicyAttrs) : Exec (List UInt8) :=
  pfcRequest cfg.ndebug cfg.secret (a.ip ++ [0]) (a.sender ++ [0]) (a.recipient ++ [0])

/-- `process_request`, whose `check_greylist` asks the server. -/
def policyRound (cfg : Config) (N : ℕ) (m : PolicyPath) (env : CallEnv) :
    Exec (PolicyPath × Option Exchange) := do
  match ← processLoop N m.input PolicyAttrs.empty with
  | none => .ok (m, none)
  | some (input, a) => do
      let (v, server) ← remoteCheck cfg (a.encode cfg) (pfcVerdict cfg) env m.server
      let answer ← mailAnswer cfg.ndebug v
      .ok (⟨input, server⟩, some { query := a, reply := answer.text })

/-- A policy request, with the address that is read from its text for the client: four numbers,
which the client finds inside this text. -/
structure PolicyQuestion (N : ℕ) where
  lines : List (PolicyLine N)
  ip : List UInt8
  scanned : ∃ back, scanDotted ((query lines).ip ++ [0]) = .ok (ip, back)

/-- A policy request that was answered: the request that the server got for it, with the reply of
the server, and the answer to Postfix. -/
structure PolicyServed (cfg : Config) (N : ℕ) where
  question : PolicyQuestion N
  env : CallEnv
  req : Request
  reply : Reply
  answer : MailAnswer
  asks : req.AsksFor cfg env question.ip (query question.lines).sender
    (query question.lines).recipient
  answer_eq : mailAnswer cfg.ndebug (reply.response % 65536) = .ok answer

/-- What Postfix gets to see of it. -/
def PolicyServed.exchange {N : ℕ} (x : PolicyServed cfg N) : Exchange where
  query := query x.question.lines
  reply := x.answer.text

theorem zero_notMem_lastValue {N : ℕ} (name : List UInt8) (req : List (PolicyLine N)) :
    0 ∉ lastValue name req := by
  rw [lastValue]
  cases hlast : (req.filter fun line => line.name = name).getLast? with
  | none => exact List.not_mem_nil
  | some line => exact line.zero_value

/-- The packet that `check_greylist` sends for a question. -/
theorem PolicyQuestion.delivers {N : ℕ} (q : PolicyQuestion N) (cfg : Config) :
    ∃ packet, (query q.lines).encode cfg = .ok packet ∧ ClientPacket cfg packet ∧
      Delivers cfg packet q.ip ((query q.lines).sender.take 200)
        ((query q.lines).recipient.take 200) := by
  obtain ⟨back, hscan⟩ := q.scanned
  obtain ⟨packet, hencode, hdelivers⟩ := pfcRequest_scanned cfg cfg.ndebug hscan
    (zero_notMem_lastValue (ascii "sender") q.lines)
    (zero_notMem_lastValue (ascii "recipient") q.lines) [] []
  exact ⟨packet, hencode, clientPacket_pfcRequest hencode, hdelivers⟩

/-- A policy request is answered with the result of the call. -/
theorem policyRound_of {N : ℕ} (hN : 0 < N) {m : PolicyPath} (hm : m.input.Ok N)
    {lines : List (PolicyLine N)} {rest : List UInt8}
    (hpending : m.input.pending = requestText lines ++ rest) {env : CallEnv} {v : ℤ}
    {server : Server × List UInt8} {answer : MailAnswer}
    (hcheck : remoteCheck cfg ((query lines).encode cfg) (pfcVerdict cfg) env m.server =
      .ok (v, server)) (hanswer : mailAnswer cfg.ndebug v = .ok answer) :
    ∃ input, policyRound cfg N m env =
        .ok (⟨input, server⟩, some { query := query lines, reply := answer.text }) ∧
      input.Ok N ∧ input.pending = rest := by
  obtain ⟨input, hloop, hok, hrest⟩ := processLoop_request hN lines hm hpending PolicyAttrs.empty
  rw [foldl_set_eq_query] at hloop
  refine ⟨input, ?_, hok, hrest⟩
  rw [policyRound, hloop, ok_bind]
  dsimp only
  rw [hcheck, ok_bind, hanswer, ok_bind]

end Call

/-- `mf_rcpt_to`, whose `check_greylist` asks the server. -/
def milterRound (cfg : Config) (removeChar : RemoveChar) (data : MfPrivate)
    (s : Server × List UInt8) (x : CString × CallEnv) :
    Exec ((Server × List UInt8) × Sfsistat) := do
  let args ← mfRcptToArgs removeChar data x.1
  let (v, s) ← remoteCheck cfg (smcRequest cfg.ndebug cfg.secret args.ip args.sender
    args.recipient) (smcVerdict cfg) x.2 s
  let status ← mfRcptTo cfg.ndebug v
  .ok (s, status)

/-- The recipient that is to be checked: the argument of `RCPT TO` without its brackets. -/
def CString.recipient (argv0 : CString) : List UInt8 :=
  argv0.text.filter fun c => !isbracket c

section Milter

variable {cfg : Config} {removeChar : RemoveChar} {data : MfPrivate} {sender : List UInt8}

/-- The string in some memory, and what is behind it. -/
theorem eq_append_of_cstring {mem text : List UInt8} (h : cstring mem = .ok text) :
    0 ∉ text ∧ ∃ rest, mem = text ++ 0 :: rest := by
  have hmem : 0 ∈ mem := by
    by_contra hnot
    rw [cstring, if_neg hnot] at h
    cases h
  obtain ⟨text', rest, hzero, rfl⟩ := exists_string_of_zero_mem hmem
  rw [cstring_append hzero] at h
  cases h
  exact ⟨hzero, rest, rfl⟩

/-- The packet that `check_greylist` sends for a recipient, which is taken out of its brackets in
place. -/
theorem milter_delivers (cfg : Config) (hremove : removeChar.Behaves) (hip : data.ip.length = 4)
    (hsender : cstring data.sender = .ok sender) (rcpt : CString) :
    ∃ args packet, mfRcptToArgs removeChar data rcpt = .ok args ∧
      smcRequest cfg.ndebug cfg.secret args.ip args.sender args.recipient = .ok packet ∧
      ClientPacket cfg packet ∧
      Delivers cfg packet data.ip (sender.take 200) (rcpt.recipient.take 200) := by
  have hnil : (0 : UInt8) ∉ ([] : List UInt8) := List.not_mem_nil
  obtain ⟨mem, hmem, htext⟩ := removeCharAt_mailFrom hremove rcpt.nonzero hnil []
  rw [List.filter_nil, List.append_nil] at htext
  obtain ⟨hzero, rest, hmem'⟩ := eq_append_of_cstring htext
  obtain ⟨hzero', rest', hsender'⟩ := eq_append_of_cstring hsender
  obtain ⟨a, b, c, d, hoctets⟩ : ∃ a b c d, data.ip = [a, b, c, d] := by
    match data.ip, hip with
    | [a, b, c, d], _ => exact ⟨a, b, c, d, rfl⟩
  obtain ⟨packet, hencode, hdelivers⟩ :=
    smcRequest_delivers cfg cfg.ndebug a b c d hzero' hzero [] rest' rest
  rw [List.append_nil, ← hsender', ← hmem', ← hoctets] at hencode
  rw [← hoctets] at hdelivers
  have hmemory : rcpt.memory = rcpt.text ++ ([] ++ 0 :: []) := rfl
  refine ⟨⟨data.ip, data.sender, mem⟩, packet, ?_, hencode, clientPacket_smcRequest hencode,
    hdelivers⟩
  rw [mfRcptToArgs, hmemory, hmem]
  rfl

end Milter

end XGrey
