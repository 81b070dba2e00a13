import XGrey.Server

/-!
# The Rule Files

The text files from which the server reads its rules at startup: `iplist_read` of
`server/iplist.c` for the rules on client addresses, and `tofrom_read_stream` of
`server/emaildomain.c` for the four address lists. A file is the list of its lines as
`getline` delivers them.

Both loaders look up the command of a line in the table `c_ift`, but only `iplist_read`
checks what it finds. Neither of them excludes `EXPIRE`, which the table has as well.

`tofrom_read_stream` releases the fields of the last line at the beginning of each round.
A line without fields leaves nothing to release, so that the next round does it again for
a line before; whether there is something to release is the flag `held`.
-/

open CRuntime

namespace XGrey

/-! ### The rules on client addresses -/

/-- The loop over the octets of an address, with `n` of them to go. They are written to a
buffer that is kept from line to line. The result is the buffer and the text behind the
address, or nothing after a syntax error. -/
def iplistOctets : ℕ → ℕ → List UInt8 → List UInt8 → Exec (Option (List UInt8 × List UInt8))
  | 0, _, ip, tline => .ok (some (ip, tline))
  | n + 1, octetcount, ip, tline => do
      let (octet, tline) ← strtoul tline
      let ip := ip.set octetcount (UInt8.ofNat octet)
      match tline with
      | [] => .error .memory
      | c :: rest =>
          if c = 0 ∨ c = 47 then .ok (some (ip, tline))
          else if c ≠ 46 then .ok none
          else iplistOctets n (octetcount + 1) ip rest

/-- What a line of the file is. -/
inductive IpLine
  /-- a blank line -/
  | blank
  /-- a syntax error, which ends the loading -/
  | bad
  /-- a rule for a prefix of so many bits of the address in the buffer -/
  | rule (mask cmd : ℤ)

/-- The mask behind an address, which is 32 if there is none. -/
def iplistMask (tline : List UInt8) : Exec ℤ :=
  if tline.head? = some 47 then do
    let (mask, _) ← strtoul tline.tail
    .ok (toInt mask)
  else .ok 32

/-- The body of the loop of `iplist_read` up to the call of `ip_add_sm`, with the buffer
for the address. -/
def iplistLine (cgi : CgiLib) (ip linebuff : List UInt8) : Exec (IpLine × List UInt8) :=
  let line := cgi.trimSpace linebuff
  if cgi.emptyString line then .ok (.blank, ip)
  else do
    let tokens ← split (cgi.upString line)
    let address := tokens.headD []
    if ¬ isdigit (address.headD 0) then .ok (.bad, ip)
    else
      match ← iplistOctets 4 0 ip (address ++ [0]) with
      | none => .ok (.bad, ip)
      | some (ip, tline) => do
          let mask ← iplistMask tline
          if mask > 32 then .ok (.bad, ip)
          else
            match tokens[1]? with
            | none => .error .memory
            | some name =>
                if ciMapInt name cIft = -1 then .ok (.bad, ip)
                else .ok (.rule mask (ciMapInt name cIft), ip)

/-- `iplist_read` on the lines of a file, with the buffer for the address. The result says
whether the whole file was read. -/
def iplistRead (cgi : CgiLib) (ndebug : Bool) :
    IpList → List UInt8 → List (List UInt8) → Exec (IpList × Bool)
  | l, _, [] => .ok (l, true)
  | l, ip, linebuff :: lines => do
      let (line, ip) ← iplistLine cgi ip linebuff
      match line with
      | .blank => iplistRead cgi ndebug l ip lines
      | .bad => .ok (l, false)
      | .rule mask cmd => do
          let l ← ipAddSm ndebug l ip mask cmd
          iplistRead cgi ndebug l ip lines

/-! ### The address lists -/

/-- What a line of the file is. -/
inductive TofromLine
  /-- a blank line or a comment, of which no fields are made -/
  | blank
  /-- fewer than three fields -/
  | bad
  /-- the default -/
  | dflt (cmd : ℤ)
  /-- a rule for a text -/
  | rule (text : List UInt8) (cmd : ℤ)
  deriving DecidableEq

/-- The body of the loop of `tofrom_read_stream` up to what a line does to the list. -/
def tofromLine (cgi : CgiLib) (linebuff : List UInt8) : Exec TofromLine :=
  if cgi.emptyString linebuff then .ok .blank
  else
    let line := cgi.trimSpace linebuff
    if line.head? = some 35 then .ok .blank
    else do
      match ← split line with
      | _ :: name :: text :: _ =>
          if text = ascii "default" ∨ text = ascii "DEFAULT" then
            .ok (.dflt (ciMapInt name cIft))
          else .ok (.rule text (ciMapInt name cIft))
      | _ => .ok .bad

/-- What a line does to the list. The old counts are not taken over, since nothing sets
`cf_oldcounts`. -/
def tofromAdd (ndebug : Bool) (l : AddrList) : TofromLine → Exec AddrList
  | .blank => .ok l
  | .bad => .ok l
  | .dflt cmd => .ok { l with dflt := cmd, dfltc := 0 }
  | .rule text cmd =>
      match edomainSearch text l.entries with
      | (none, idx) => edomainAdd ndebug l { text := text, count := 0, cmd := cmd } idx
      | (some _, _) => .ok l

/-- `tofrom_read_stream` on the lines of a file. A line without a newline is the last one,
and the loop ends behind it because `getline` has met the end of the file. -/
def tofromReadStream (cgi : CgiLib) (ndebug : Bool) :
    AddrList → Bool → List (List UInt8) → Exec AddrList
  | l, held, [] => if held then .ok l else .error .doubleFree
  | l, held, linebuff :: lines =>
      if held then do
        let line ← tofromLine cgi linebuff
        let l ← tofromAdd ndebug l line
        if linebuff.getLast? = some 10 then
          tofromReadStream cgi ndebug l (decide (line ≠ .blank)) lines
        else .ok l
      else .error .doubleFree

/-- The address lists of the server. -/
inductive ListName
  | fromL
  | fromdL
  | toL
  | todL
  deriving DecidableEq

/-- An address list by its name. -/
def Server.list (srv : Server) : ListName → AddrList
  | .fromL => srv.fromL
  | .fromdL => srv.fromdL
  | .toL => srv.toL
  | .todL => srv.todL

/-- The server with another address list under a name. -/
def Server.setList (srv : Server) (l : AddrList) : ListName → Server
  | .fromL => { srv with fromL := l }
  | .fromdL => { srv with fromdL := l }
  | .toL => { srv with toL := l }
  | .todL => { srv with todL := l }

/-- `from_read`, `fromd_read`, `to_read` and `tod_read`. -/
def tofromRead (cgi : CgiLib) (ndebug : Bool) (srv : Server) (name : ListName)
    (lines : List (List UInt8)) : Exec Server := do
  let l ← tofromReadStream cgi ndebug (srv.list name) true lines
  .ok (srv.setList l name)

/-! ### The packets for the address lists -/

/-- The type of the packets that change an address list. -/
def ListName.cmd : ListName → Cmd
  | .fromL => .mcpFrom
  | .fromdL => .mcpFromDomain
  | .toL => .mcpTo
  | .todL => .mcpToDomain

/-- The type of the reply to them. -/
def ListName.resp : ListName → Cmd
  | .fromL => .mcpFromResp
  | .fromdL => .mcpFromDomainResp
  | .toL => .mcpToResp
  | .todL => .mcpToDomainResp

/-- **A packet for an address list** changes that list and no other. -/
theorem cmdMcpTofrom_eq (cfg : Config) (srv : Server) (req : Request) (name : ListName)
    (resp : Cmd) :
    cmdMcpTofrom cfg srv req name.cmd resp = (do
      let text ← cstring (req.packet.drop 14)
      let l ← mcpTofromList cfg.ndebug (srv.list name) text (ntohs req.packet 10)
      let out ← sendReply cfg.ndebug req resp 0 .none
      .ok (out, srv.setList l name, req)) := by
  cases name <;> rfl

/-- The main loop hands such a packet to `cmd_mcp_tofrom`. -/
theorem dispatch_listName (cfg : Config) (srv : Server) (req : Request) (canReport : Bool)
    (name : ListName) :
    dispatch cfg srv req canReport (some name.cmd) =
      cmdMcpTofrom cfg srv req name.cmd name.resp := by
  cases name <;> rfl

end XGrey
