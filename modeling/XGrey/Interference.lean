import XGrey.MainLoop
import XGrey.StaleBuffer

/-!
# Datagrams without Effect

Anybody can send datagrams to the server. Those whose checksum does not verify are skipped, and
of the others many only ask for something. Here two runs of the process are compared: in one of
them the datagrams without an effect are received, in the other they are lost on the way.

What such a datagram leaves behind is the packet buffer, which the next one is received into. It
is not seen as long as of every datagram with the right checksum was received what decides how it
is handled (`Contained`).

## Main results

* `run_lost`: the two runs do the same at every step, up to the answers to the datagrams without
  an effect, and fail at the same step if they do.
-/

open CRuntime StepRun PollingLoop

namespace XGrey

/-! ### What has no effect -/

instance (cfg : Config) (packet : List UInt8) : Decidable (Verified cfg packet) :=
  inferInstanceAs (Decidable (_ = _))

/-- A request that leaves the server as it is: a verdict or a removal is asked for with sizes that
do not fit, a rule for an address of the wrong size is sent, or something is to be shown. -/
def Request.Inert (req : Request) : Option Cmd → Prop
  | some .greylist => ¬ req.Accepts
  | some .whitelist => ¬ req.Accepts
  | some .tupleRemove => ¬ req.Accepts
  | some .mcpIplist => ntohs req.packet 12 ≠ 4
  | some .mcpTo => False
  | some .mcpToDomain => False
  | some .mcpFrom => False
  | some .mcpFromDomain => False
  | _ => True

instance (req : Request) (type : Option Cmd) : Decidable (req.Inert type) := by
  unfold Request.Inert
  split <;> infer_instance

/-- The request that a datagram makes of an empty buffer. -/
def Datagram.fresh (d : Datagram) : Request := (d.request (List.replicate 1500 0)).swapField 8

/-- A datagram without an effect: its checksum or its version is wrong, or its request is inert. -/
def Datagram.Idle (cfg : Config) (d : Datagram) : Prop :=
  ¬ Verified cfg d.data ∨ version < ntohs d.data 4 ∨ d.fresh.Inert (Cmd.ofCode (ntohs d.data 8))

instance (cfg : Config) (d : Datagram) : Decidable (d.Idle cfg) :=
  inferInstanceAs (Decidable (_ ∨ _ ∨ _))

/-- Enough of a datagram was received: the checksum is there, and behind the right checksum what
decides. -/
structure Datagram.Readable (cfg : Config) (d : Datagram) : Prop where
  five_le : 5 ≤ d.data.length
  le_buffer : d.data.length ≤ 1500
  contained : Verified cfg d.data → Contained cfg.ndebug d.data

/-! ### The buffer -/

section Buffer

variable {cfg : Config} {srv srv' : Server} {req req' : Request} {out : List Output}

theorem reply_packet {type : Cmd} {response : ℤ} {why : Reason} {srv₀ : Server}
    {req₀ : Request} (h : (do
      let out ← sendReply cfg.ndebug req type response why
      .ok (out, srv₀, req₀)) = (.ok (out, srv', req') : Exec _)) : req' = req₀ := by
  obtain ⟨_, _, h⟩ := bind_eq_ok.mp h
  cases h
  rfl

theorem typeGreylist_packet {cmd response : Cmd}
    (h : typeGreylist cfg srv req cmd response = .ok (out, srv', req')) :
    req' = req.converted := by
  by_cases hacc : req.Accepts
  · exact (typeGreylist_inv hacc h).1
  · rw [typeGreylist, greylistSanitizeReq_of_not_accepts cfg hacc] at h
    cases h
    rfl

theorem typeTupleRemove_packet (h : typeTupleRemove cfg srv req = .ok (out, srv', req')) :
    req' = req.converted := by
  by_cases hacc : req.Accepts
  · rw [typeTupleRemove_of_accepts cfg srv hacc] at h
    cases h
    rfl
  · rw [typeTupleRemove, greylistSanitizeReq_of_not_accepts cfg hacc] at h
    cases h
    rfl

theorem cmdMcpIplist_packet (h : cmdMcpIplist cfg srv req = .ok (out, srv', req')) :
    req' = req := by
  rw [cmdMcpIplist] at h
  split_ifs at h
  · exact reply_packet h
  · obtain ⟨l, _, h⟩ := bind_eq_ok.mp h
    exact reply_packet h

theorem cmdMcpTofrom_packet (name : ListName) {resp : Cmd}
    (h : cmdMcpTofrom cfg srv req name.cmd resp = .ok (out, srv', req')) : req' = req := by
  rw [cmdMcpTofrom_eq] at h
  obtain ⟨text, _, h⟩ := bind_eq_ok.mp h
  obtain ⟨l, _, h⟩ := bind_eq_ok.mp h
  exact reply_packet h

theorem cmdMcpReport_packet {canReport : Bool} {resp : Cmd}
    (h : cmdMcpReport cfg srv req canReport resp = .ok (out, srv', req')) : req' = req := by
  rw [cmdMcpReport] at h
  cases canReport with
  | true => exact reply_packet h
  | false => exact reply_packet h

/-- A request leaves the packet as it is, or with its sizes converted. -/
theorem dispatch_packet {canReport : Bool} {type : Option Cmd}
    (h : dispatch cfg srv req canReport type = .ok (out, srv', req')) :
    req' = req ∨ req' = req.converted := by
  rw [dispatch.eq_def] at h
  split at h
  · exact Or.inl (reply_packet h)
  · exact Or.inr (typeGreylist_packet h)
  · exact Or.inr (typeGreylist_packet h)
  · exact Or.inr (typeTupleRemove_packet h)
  · cases h
    exact Or.inl rfl
  · cases h
    exact Or.inl rfl
  · exact Or.inl (cmdMcpReport_packet h)
  · exact Or.inl (cmdMcpReport_packet h)
  · exact Or.inl (cmdMcpReport_packet h)
  · exact Or.inl (cmdMcpReport_packet h)
  · exact Or.inl (cmdMcpReport_packet h)
  · exact Or.inl (cmdMcpReport_packet h)
  · exact Or.inl (cmdMcpReport_packet h)
  · exact Or.inl (cmdMcpReport_packet h)
  · exact Or.inl (cmdMcpIplist_packet h)
  · exact Or.inl (cmdMcpTofrom_packet .toL h)
  · exact Or.inl (cmdMcpTofrom_packet .todL h)
  · exact Or.inl (cmdMcpTofrom_packet .fromL h)
  · exact Or.inl (cmdMcpTofrom_packet .fromdL h)
  · exact Or.inl (reply_packet h)

end Buffer

section Receive

variable {cfg : Config} {srv srv' : Server} {buf buf' : List UInt8} {d : Datagram}
  {out : List Output}

/-- The packet buffer keeps its size. -/
theorem gldRecv_length (h : d.data.length ≤ 1500) (hbuf : buf.length = 1500)
    (hok : gldRecv cfg srv buf d = .ok (out, srv', buf')) : buf'.length = 1500 := by
  have hlen : (d.request buf).packet.length = 1500 := (shares_request h hbuf hbuf).length
  have hswap : ((d.request buf).swapField 8).packet.length = 1500 := by
    simpa [Request.swapField, swapField] using hlen
  obtain ⟨crc, _, hok⟩ := bind_eq_ok.mp hok
  dsimp only at hok
  split_ifs at hok
  · cases hok
    exact hlen
  · obtain ⟨_, _, hok⟩ := bind_eq_ok.mp hok
    cases hok
    exact hlen
  · obtain ⟨⟨_, _, req⟩, hdispatch, hok⟩ := bind_eq_ok.mp hok
    cases hok
    rcases dispatch_packet hdispatch with heq | heq
    · rw [heq]
      exact hswap
    · rw [heq, length_packet_converted]
      exact hswap

/-- Two rounds of the main loop gave the same answers and left the same server. -/
def SameServer (r r' : List Output × Server × List UInt8) : Prop :=
  r.1 = r'.1 ∧ r.2.1 = r'.2.1 ∧ r.2.2.length = 1500 ∧ r'.2.2.length = 1500

/-- Two rounds that agree on the answers and the server have buffers of the same size. -/
theorem sameServer_gldRecv (h : d.data.length ≤ 1500) (hbuf : buf.length = 1500)
    (hbuf' : buf'.length = 1500)
    (hsame : Related (fun r r' => r.1 = r'.1 ∧ r.2.1 = r'.2.1) (gldRecv cfg srv buf d)
      (gldRecv cfg srv buf' d)) :
    Related SameServer (gldRecv cfg srv buf d) (gldRecv cfg srv buf' d) := by
  have hlen : ∀ {buf r}, List.length buf = 1500 → gldRecv cfg srv buf d = .ok r →
      r.2.2.length = 1500 := fun hbuf hok => gldRecv_length h hbuf hok
  generalize hr : gldRecv cfg srv buf d = r at hsame ⊢
  generalize hr' : gldRecv cfg srv buf' d = r' at hsame ⊢
  cases hsame with
  | ok heq => exact .ok ⟨heq.1, heq.2, hlen hbuf hr, hlen hbuf' hr'⟩
  | error e => exact .error e

/-- The request of a datagram does not depend on the buffer, as far as its type looks at it. -/
theorem related_dispatch_request (hd : d.Readable cfg) (hver : Verified cfg d.data)
    (hversion : ¬ version < ntohs d.data 4) (hbuf : buf.length = 1500)
    (hbuf' : buf'.length = 1500) :
    Related SameAnswer
      (dispatch cfg srv ((d.request buf).swapField 8) d.canReport
        (Cmd.ofCode (ntohs (d.request buf).packet 8)))
      (dispatch cfg srv ((d.request buf').swapField 8) d.canReport
        (Cmd.ofCode (ntohs (d.request buf').packet 8))) := by
  obtain ⟨_, h, hcont⟩ := hd
  obtain ⟨hlen, hcont⟩ := hcont hver
  have hs := shares_request (d := d) h hbuf hbuf'
  rcases hcont with hbad | ⟨hnine, hbyte⟩ | ⟨hten, htype⟩
  · exact absurd hbad hversion
  · -- a type with a byte in its upper half is none
    have hnone : ∀ buf, Cmd.ofCode (ntohs (d.request buf).packet 8) = none := by
      intro buf
      have hpos := toNat_pos hbyte
      have hle := le_ntohs (d.request buf).packet 8
      rw [show (d.request buf).packet.getD 8 0 = d.data.getD 8 0 by
        rw [packet_request buf h, getD_append_left hnine]] at hle
      exact Cmd.ofCode_of_le (by omega)
    rw [hnone, hnone, dispatch_none, dispatch_none, reply_swapField _ (le_refl 8),
      reply_swapField _ (le_refl 8), hs.reply_eq hlen]
    exact .ok ⟨rfl, rfl⟩
  · rw [ntohs_packet_request buf h (by omega), ntohs_packet_request buf' h (by omega)]
    exact related_dispatch (hs.swapField hten) hlen d.canReport _
      (typeShared_of_contained h hbuf hbuf' hten htype)

/-- **What was in the buffer** is not seen. -/
theorem related_gldRecv_readable (hd : d.Readable cfg) (hbuf : buf.length = 1500)
    (hbuf' : buf'.length = 1500) :
    Related SameServer (gldRecv cfg srv buf d) (gldRecv cfg srv buf' d) := by
  have hfive := hd.five_le
  have h := hd.le_buffer
  refine sameServer_gldRecv h hbuf hbuf' ?_
  by_cases hver : Verified cfg d.data
  · have hlen : 8 ≤ d.data.length := (hd.contained hver).1
    have hfour : ∀ buf, ntohs (d.request buf).packet 4 = ntohs d.data 4 := fun buf =>
      ntohs_packet_request buf h (by omega)
    by_cases hversion : version < ntohs d.data 4
    · rw [gldRecv_of_version cfg srv buf h hfive hver (by rwa [hfour]),
        gldRecv_of_version cfg srv buf' h hfive hver (by rwa [hfour]),
        (shares_request h hbuf hbuf').sendReply_eq hlen]
      exact related_bind_same fun out => .ok ⟨rfl, rfl⟩
    · rw [gldRecv_of_verified cfg srv buf h hfive hver (by rw [hfour]; omega),
        gldRecv_of_verified cfg srv buf' h hfive hver (by rw [hfour]; omega)]
      exact (related_dispatch_request hd hver hversion hbuf hbuf').bind fun r r' hr => .ok hr
  · rw [gldRecv_of_mismatch cfg srv buf h hfive hver,
      gldRecv_of_mismatch cfg srv buf' h hfive hver]
    exact .ok ⟨rfl, rfl⟩

/-- An inert request is answered, and the server stays as it is. -/
theorem dispatch_inert {req : Request} {type : Option Cmd} (hinert : req.Inert type)
    (canReport : Bool) :
    ∃ out req', dispatch cfg srv req canReport type = .ok (out, srv, req') := by
  have hreply : ∀ type' response why, 0 ≤ response → ∃ out req', (do
      let out ← sendReply cfg.ndebug req type' response why
      .ok (out, srv, req)) = (.ok (out, srv, req') : Exec (List Output × Server × Request)) := by
    intro type' response why hresponse
    rw [sendReply_eq _ _ hresponse, ok_bind]
    exact ⟨_, _, rfl⟩
  have hreport : ∀ resp, ∃ out req',
      cmdMcpReport cfg srv req canReport resp = .ok (out, srv, req') := by
    intro resp
    rw [cmdMcpReport]
    cases canReport with
    | true => exact hreply _ _ _ (le_refl 0)
    | false => exact hreply _ _ _ (by decide)
  have hcheck : ¬ req.Accepts → ∀ cmd response, ∃ out req',
      typeGreylist cfg srv req cmd response = .ok (out, srv, req') := by
    intro hacc cmd response
    rw [typeGreylist, greylistSanitizeReq_of_not_accepts cfg hacc]
    exact ⟨_, _, rfl⟩
  unfold Request.Inert at hinert
  split at hinert
  · exact hcheck hinert _ _
  · exact hcheck hinert _ _
  · change ∃ out req', typeTupleRemove cfg srv req = .ok (out, srv, req')
    rw [typeTupleRemove, greylistSanitizeReq_of_not_accepts cfg hinert]
    exact ⟨_, _, rfl⟩
  · change ∃ out req', cmdMcpIplist cfg srv req = .ok (out, srv, req')
    rw [cmdMcpIplist, if_pos hinert]
    exact hreply _ _ _ (by decide)
  · exact hinert.elim
  · exact hinert.elim
  · exact hinert.elim
  · exact hinert.elim
  · -- what is left is answered with an error, or shows something
    rw [dispatch.eq_def]
    split
    all_goals first
      | exact hreport _
      | exact ⟨_, _, rfl⟩
      | exact hreply _ _ _ (by decide)
      | exact absurd rfl ‹_›

/-- The fields of a datagram in an empty buffer. -/
theorem ntohs_fresh (h : d.data.length ≤ 1500) (off : ℕ) :
    ntohs (d.request (List.replicate 1500 0)).packet off = ntohs d.data off := by
  have hget : ∀ i, (d.request (List.replicate 1500 0)).packet.getD i 0 = d.data.getD i 0 := by
    intro i
    rw [packet_request _ h, List.getD_eq_getElem?_getD, List.getD_eq_getElem?_getD,
      List.getElem?_append, List.drop_replicate, List.getElem?_replicate]
    split_ifs with hin hpad
    · rfl
    · rw [List.getElem?_eq_none (Nat.le_of_not_lt hin)]
      rfl
    · rw [List.getElem?_eq_none (Nat.le_of_not_lt hin)]
  rw [ntohs, hget, hget, ntohs]

/-- **A datagram without an effect** is received, and the server stays as it is. -/
theorem gldRecv_idle (hd : d.Readable cfg) (hidle : d.Idle cfg) (hbuf : buf.length = 1500) :
    ∃ out buf', gldRecv cfg srv buf d = .ok (out, srv, buf') := by
  -- the empty buffer is as good as any other
  suffices hempty : ∃ out buf',
      gldRecv cfg srv (List.replicate 1500 0) d = .ok (out, srv, buf') by
    obtain ⟨out, buf', hok⟩ := hempty
    have hsame : Related SameServer (gldRecv cfg srv buf d)
        (gldRecv cfg srv (List.replicate 1500 0) d) :=
      related_gldRecv_readable hd hbuf List.length_replicate
    rw [hok] at hsame
    generalize gldRecv cfg srv buf d = r at hsame ⊢
    rcases hsame with @⟨⟨out₁, srv₁, buf₁⟩, _, -, hsrv, -⟩ | _
    exact ⟨out₁, buf₁, by rw [show srv₁ = srv from hsrv]⟩
  have hfive := hd.five_le
  have h := hd.le_buffer
  by_cases hver : Verified cfg d.data
  · have hlen : 8 ≤ d.data.length := (hd.contained hver).1
    by_cases hversion : version < ntohs d.data 4
    · rw [gldRecv_of_version cfg srv _ h hfive hver (by rwa [ntohs_fresh h]),
        sendReply_eq _ _ (by decide)]
      exact ⟨_, _, rfl⟩
    · have hinert := (hidle.resolve_left (not_not.mpr hver)).resolve_left hversion
      obtain ⟨out, req', hok⟩ : ∃ out req', dispatch cfg srv d.fresh d.canReport
          (Cmd.ofCode (ntohs d.data 8)) = .ok (out, srv, req') := dispatch_inert hinert _
      rw [gldRecv_of_verified cfg srv _ h hfive hver (by rw [ntohs_fresh h]; omega),
        ntohs_fresh h, ← Datagram.fresh, hok, ok_bind]
      exact ⟨_, _, rfl⟩
  · rw [gldRecv_of_mismatch cfg srv _ h hfive hver]
    exact ⟨_, _, rfl⟩

end Receive

/-! ### The process with and without them -/

def Effect.isSent : Effect → Bool
  | .sent _ => true
  | _ => false

/-- A datagram without an effect is lost on the way: `recvfrom` does not return it. -/
def GldEvent.lose (cfg : Config) : GldEvent → GldEvent
  | .turn env => .turn { env with datagram := env.datagram.filter fun d => ¬ d.Idle cfg }
  | e => e

/-- The datagram of an event, if there is one, has an effect. -/
def GldEvent.Busy (cfg : Config) : GldEvent → Prop
  | .turn env => ∀ d, env.datagram = some d → ¬ d.Idle cfg
  | _ => True

def GldEvent.Readable (cfg : Config) : GldEvent → Prop
  | .turn env => ∀ d, env.datagram = some d → d.Readable cfg
  | _ => True

/-- Two processes that differ in the packet buffer alone. -/
structure SameButBuffer (g g' : Gld) : Prop where
  eq : { g with buf := g'.buf } = g'
  length : g.buf.length = 1500
  length' : g'.buf.length = 1500

/-- What the process did at two steps is the same, up to the answers to a datagram without an
effect. -/
structure SameButAnswer (cfg : Config) (e : GldEvent) (o o' : GldOut) : Prop where
  mark : o.mark = o'.mark
  effects : o.effects.filter (!·.isSent) = o'.effects.filter (!·.isSent)
  busy : e.Busy cfg → o.effects = o'.effects

section Process

variable {cfg : Config} {g g' : Gld} {env : Env}

/-- A handler does not look at the packet buffer. -/
theorem handleSig_buf (cfg : Config) (g : Gld) (buf : List UInt8) (env : Env) (s : Sig) :
    handleSig cfg { g with buf := buf } env s =
      (handleSig cfg g env s).map fun r => ({ r.1 with buf := buf }, r.2) := by
  cases s with
  | chld => rfl
  | alrm =>
      rw [handleSig, handleSig, handleAlarm, handleAlarm]
      cases handleSigalrm cfg g.srv env.now with
      | error e => rfl
      | ok srv =>
          rw [ok_bind, ok_bind]
          dsimp only
          split_ifs <;> rfl
  | int | quit | term =>
      rw [handleSig, handleSig, handleEnd, handleEnd]
      cases saveState cfg g.srv <;> rfl
  | pipe => rfl
  | usr1 => rfl
  | usr2 =>
      rw [handleSig, handleSig]
      cases handleSigusr2 cfg g.srv env.now <;> rfl
  | hup => rfl
  | stupid => rfl

/-- The handler of a flag does not receive anything. -/
theorem handleSig_datagram (cfg : Config) (g : Gld) (env : Env) (d : Option Datagram) (s : Sig) :
    handleSig cfg g { env with datagram := d } s = handleSig cfg g env s := by
  cases s <;> rfl

/-- A handler leaves the packet buffer as it is. -/
theorem handleSig_keeps {s : Sig} {effects : List Effect}
    (h : handleSig cfg g env s = .ok (g', effects)) : g'.buf = g.buf := by
  have hhandles := handleSig_inv h
  cases hhandles <;> rfl

/-- A datagram is received by one process, and by the other unless it is lost. -/
theorem related_receive (hbuf : g.buf.length = 1500) {buf : List UInt8}
    (hbuf' : buf.length = 1500) (he : (GldEvent.turn env).Readable cfg) :
    Related (fun r r' => SameButBuffer r.1 r'.1 ∧
        SameButAnswer cfg (.turn env) ⟨.worked, r.2⟩ ⟨.worked, r'.2⟩)
      (receive cfg g env.datagram)
      (receive cfg { g with buf := buf } (env.datagram.filter fun d => ¬ d.Idle cfg)) := by
  cases hd : env.datagram with
  | none => exact .ok ⟨⟨rfl, hbuf, hbuf'⟩, rfl, rfl, fun _ => rfl⟩
  | some d =>
      have hread : d.Readable cfg := he d hd
      by_cases hidle : d.Idle cfg
      · obtain ⟨out, buf₁, hok⟩ : ∃ out buf', gldRecv cfg g.srv g.buf d = .ok (out, g.srv, buf') :=
          gldRecv_idle hread hidle hbuf
        have hlen := gldRecv_length hread.le_buffer hbuf hok
        rw [Option.filter_some, if_neg (by simpa using hidle), receive, receive, hok, ok_bind]
        refine .ok ⟨⟨rfl, hlen, hbuf'⟩, rfl, rfl, fun hbusy => ?_⟩
        exact absurd hidle (hbusy d hd)
      · rw [Option.filter_some, if_pos (by simpa using hidle), receive, receive]
        refine (related_gldRecv_readable hread hbuf hbuf').bind fun r r' hr => ?_
        obtain ⟨hout, hsrv, hlen, hlen'⟩ := hr
        refine .ok ⟨⟨?_, hlen, hlen'⟩, rfl, ?_, fun _ => ?_⟩
        · rw [hsrv]
        · rw [hout]
        · rw [hout]

/-- The next statement of the loop. -/
theorem related_takeTurn (hbuf : g.buf.length = 1500) {buf : List UInt8}
    (hbuf' : buf.length = 1500) (he : (GldEvent.turn env).Readable cfg) (mark : Mark Sig) :
    Related (fun r r' => SameButBuffer r.1 r'.1 ∧
        SameButAnswer cfg (.turn env) ⟨mark, r.2⟩ ⟨mark, r'.2⟩)
      (takeTurn cfg g env mark)
      (takeTurn cfg { g with buf := buf }
        { env with datagram := env.datagram.filter fun d => ¬ d.Idle cfg } mark) := by
  cases mark with
  | idle => exact .ok ⟨⟨rfl, hbuf, hbuf'⟩, rfl, rfl, fun _ => rfl⟩
  | handled s =>
      rw [takeTurn, takeTurn, handleSig_datagram cfg { g with buf := buf },
        handleSig_buf cfg g buf]
      cases hok : handleSig cfg g env s with
      | error e => exact .error e
      | ok r =>
          obtain ⟨g₁, effects⟩ := r
          refine .ok ⟨⟨rfl, ?_, hbuf'⟩, rfl, rfl, fun _ => rfl⟩
          rwa [handleSig_keeps hok]
  | worked => exact related_receive hbuf hbuf' he

/-- **A step** of the two processes. -/
theorem related_gldStep {e : GldEvent} (h : SameButBuffer g g') (he : e.Readable cfg) :
    Related (fun r r' => SameButBuffer r.1 r'.1 ∧ SameButAnswer cfg e r.2 r'.2)
      (gldStep cfg g e) (gldStep cfg g' (e.lose cfg)) := by
  obtain ⟨heq, hbuf, hbuf'⟩ := h
  generalize g'.buf = buf at heq hbuf'
  subst heq
  by_cases hended : g.ended.isSome = true
  · unfold gldStep
    rw [if_pos hended, if_pos hended]
    exact .ok ⟨⟨rfl, hbuf, hbuf'⟩, rfl, rfl, fun _ => rfl⟩
  unfold gldStep
  rw [if_neg hended, if_neg hended]
  cases e with
  | signal s =>
      change Related _ (if s ∈ caughtSigs then _ else _) (if s ∈ caughtSigs then _ else _)
      by_cases hs : s ∈ caughtSigs
      · rw [if_pos hs, if_pos hs]
        exact .ok ⟨⟨rfl, hbuf, hbuf'⟩, rfl, rfl, fun _ => rfl⟩
      · rw [if_neg hs, if_neg hs]
        exact .ok ⟨⟨rfl, hbuf, hbuf'⟩, rfl, rfl, fun _ => rfl⟩
  | timer =>
      change Related _ (if g.alarm = true then _ else _) (if g.alarm = true then _ else _)
      by_cases halarm : g.alarm = true
      · rw [if_pos halarm, if_pos halarm]
        exact .ok ⟨⟨rfl, hbuf, hbuf'⟩, rfl, rfl, fun _ => rfl⟩
      · rw [if_neg halarm, if_neg halarm]
        exact .ok ⟨⟨rfl, hbuf, hbuf'⟩, rfl, rfl, fun _ => rfl⟩
  | turn env =>
      rw [GldEvent.lose]
      dsimp only
      generalize (g.loop.turn checkOrder).1 = loop
      generalize (g.loop.turn checkOrder).2 = mark
      have hturn := related_takeTurn (g := { g with loop := loop }) hbuf hbuf' he mark
      exact hturn.bind fun r r' hr => .ok hr

end Process

/-- **Datagrams without an effect.** Whatever is sent to the process and whenever signals come to
it: it does the same at every step, with the same state of the server, the same files and the same
answers to all others, as if every datagram without an effect had been lost on the way; and if one
of the two fails then so does the other, in the same way. -/
theorem run_lost (cfg : Config) (g : Gld) (hbuf : g.buf.length = 1500) (events : List GldEvent)
    (hevents : ∀ e ∈ events, e.Readable cfg) :
    Related (fun r r' => SameButBuffer r.1 r'.1 ∧
        AnswersRelated (SameButAnswer cfg) events r.2 r'.2)
      (run (gldStep cfg) g events) (run (gldStep cfg) g (events.map (GldEvent.lose cfg))) :=
  related_run (fun _ _ _ => related_gldStep) ⟨rfl, hbuf, hbuf⟩ hevents

/-- A round of the loop in which something is received that nobody has signed. -/
def garbageTurn : GldEvent :=
  .turn { calm 0 with
    datagram := some { data := List.replicate 22 255, now := 0, clock := 0, canReport := true } }

/-- Two rounds with such a datagram, and a signal between them. -/
theorem run_lost_garbage :
    Related (fun r r' => SameButBuffer r.1 r'.1 ∧ AnswersRelated (SameButAnswer smallConfig)
        (List.replicate 11 garbageTurn ++ .signal .usr2 :: List.replicate 11 garbageTurn) r.2 r'.2)
      (run (gldStep smallConfig)
        (Gld.start smallConfig (Server.init smallConfig 0) (List.replicate 1500 0))
        (List.replicate 11 garbageTurn ++ .signal .usr2 :: List.replicate 11 garbageTurn))
      (run (gldStep smallConfig)
        (Gld.start smallConfig (Server.init smallConfig 0) (List.replicate 1500 0))
        ((List.replicate 11 garbageTurn ++ .signal .usr2 :: List.replicate 11 garbageTurn).map
          (GldEvent.lose smallConfig))) := by
  refine run_lost smallConfig _ List.length_replicate _ fun e he => ?_
  have hgarbage : garbageTurn.Readable smallConfig := by
    rintro d ⟨⟩
    exact ⟨by decide, by decide, fun _ => ⟨by decide, Or.inl (by decide)⟩⟩
  simp only [List.mem_append, List.mem_cons, List.mem_replicate] at he
  rcases he with ⟨-, rfl⟩ | rfl | ⟨-, rfl⟩
  · exact hgarbage
  · trivial
  · exact hgarbage

end XGrey
