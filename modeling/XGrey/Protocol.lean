import XGrey.Lib.CRuntime

/-!
# The Protocol of the Greylist Daemon

The constants and packets that `common/greylist.h` shares among the server `gld`, the
Postfix client `pfc`, the Sendmail client `smc` and the control program `gld-mcp`, with
the byte order of the wire. A packet is a list of bytes; the offsets are those of the
C structures on the usual ABI.

A filter command (`Ift`) is an `int` in every structure that holds one, and values
outside the enumeration do occur: the name table yields `-1` for an unknown word and a
packet carries any 16-bit number. It is therefore an integer here, and only the commands
of a packet and the reasons of a reply, which the server chooses itself, are inductive.
-/

namespace XGrey

/-! ### Filter commands -/

namespace Ift

/-- `IFT_GREYLIST`: the request goes on to the next filter. -/
def greylist : ℤ := 0
/-- `IFT_ACCEPT`. -/
def accept : ℤ := 1
/-- `IFT_REJECT`. -/
def reject : ℤ := 2
/-- `IFT_REMOVE`: deletes a rule. -/
def remove : ℤ := 3
/-- `IFT_EXPIRE`: only logged. -/
def expire : ℤ := 4
/-- `IFT_NONE`: the command of an address tree node without a rule. -/
def none : ℤ := 5

end Ift

/-- The commands that a rule is meant to have, and for which the counters have room. -/
def IsVerdict (cmd : ℤ) : Prop :=
  cmd = Ift.greylist ∨ cmd = Ift.accept ∨ cmd = Ift.reject

instance (cmd : ℤ) : Decidable (IsVerdict cmd) :=
  inferInstanceAs (Decidable (_ ∨ _))

/-- The name table `c_ift`, in which two names stand for `IFT_GREYLIST`. -/
def cIft : List (String × ℤ) :=
  [("GREYLIST", Ift.greylist), ("GRAYLIST", Ift.greylist), ("ACCEPT", Ift.accept),
    ("REJECT", Ift.reject), ("REMOVE", Ift.remove), ("EXPIRE", Ift.expire)]

/-! ### Packet types, errors and reasons -/

/-- The packet types, in the order of their enumeration. -/
inductive Cmd
  | none | noneResp
  | greylist | greylistResp
  | whitelist | whitelistResp
  | tupleRemove | tupleRemoveResp
  | mcpShowStats | mcpShowStatsResp
  | mcpShowConfig | mcpShowConfigResp
  | mcpShowIplist | mcpShowIplistResp
  | mcpShowTuple | mcpShowTupleResp
  | mcpShowTupleAll | mcpShowTupleAllResp
  | mcpShowWhitelist | mcpShowWhitelistResp
  | mcpShowTo | mcpShowToResp
  | mcpShowToDomain | mcpShowToDomainResp
  | mcpShowFrom | mcpShowFromResp
  | mcpShowFromDomain | mcpShowFromDomainResp
  | mcpIplist | mcpIplistResp
  | mcpTo | mcpToResp
  | mcpToDomain | mcpToDomainResp
  | mcpFrom | mcpFromResp
  | mcpFromDomain | mcpFromDomainResp
  deriving DecidableEq, Repr

namespace Cmd

/-- The number of a packet type on the wire. -/
def code (c : Cmd) : ℕ := c.ctorIdx

/-- All packet types, so that the one with number `n` stands at position `n`. -/
def all : List Cmd :=
  [none, noneResp, greylist, greylistResp, whitelist, whitelistResp, tupleRemove,
    tupleRemoveResp, mcpShowStats, mcpShowStatsResp, mcpShowConfig, mcpShowConfigResp,
    mcpShowIplist, mcpShowIplistResp, mcpShowTuple, mcpShowTupleResp, mcpShowTupleAll,
    mcpShowTupleAllResp, mcpShowWhitelist, mcpShowWhitelistResp, mcpShowTo,
    mcpShowToResp, mcpShowToDomain, mcpShowToDomainResp, mcpShowFrom, mcpShowFromResp,
    mcpShowFromDomain, mcpShowFromDomainResp, mcpIplist, mcpIplistResp, mcpTo,
    mcpToResp, mcpToDomain, mcpToDomainResp, mcpFrom, mcpFromResp, mcpFromDomain,
    mcpFromDomainResp]

/-- The packet type with a given number, if there is one below `CMD_MAX`. -/
def ofCode (n : ℕ) : Option Cmd := all[n]?

/-- Decoding the number of a packet type gives the type back. -/
@[simp] theorem ofCode_code (c : Cmd) : ofCode c.code = some c := by
  cases c <;> rfl

/-- Numbers from `CMD_MAX` on are no packet types. -/
theorem ofCode_of_le {n : ℕ} (h : 38 ≤ n) : ofCode n = .none := List.getElem?_eq_none h

end Cmd

/-- The errors that a reply of type `CMD_NONE_RESP` carries. -/
inductive Glerr
  | okay | versionNotSupported | mtaNotSupported | typeNotSupported | badData
  | cantGenerateReport | ipaddrNotSupported
  deriving DecidableEq, Repr

/-- The number of an error, as the response of a reply. -/
def Glerr.code (e : Glerr) : ℤ := e.ctorIdx

/-- The reasons a reply gives for its verdict. -/
inductive Reason
  | none | ip | sender | senderDomain | recipient | recipientDomain | greylist | whitelist
  deriving DecidableEq, Repr

/-- The number of a reason on the wire. -/
def Reason.code (r : Reason) : ℕ := r.ctorIdx

/-- `VERSION`: the protocol version. -/
def version : ℕ := 0x0101

/-- `MTA_MCP`. -/
def mtaMcp : ℕ := 0

/-- `MTA_POSTFIX`, which the Sendmail client sends too. -/
def mtaPostfix : ℕ := 3

/-! ### Bytes on the wire -/

/-- The two bytes of a 16-bit field in network order, `htons`. -/
def htons (n : ℕ) : List UInt8 :=
  [UInt8.ofNat (n / 256), UInt8.ofNat n]

/-- The four bytes of a 32-bit field in network order, `htonl`. -/
def htonl (n : ℕ) : List UInt8 :=
  [UInt8.ofNat (n / 16777216), UInt8.ofNat (n / 65536), UInt8.ofNat (n / 256),
    UInt8.ofNat n]

/-- The 16-bit field at an offset of a packet, `ntohs`. -/
def ntohs (p : List UInt8) (off : ℕ) : ℕ :=
  (p.getD off 0).toNat * 256 + (p.getD (off + 1) 0).toNat

/-- The 32-bit field at an offset of a packet, `ntohl`. -/
def ntohl (p : List UInt8) (off : ℕ) : ℕ :=
  (p.getD off 0).toNat * 16777216 + (p.getD (off + 1) 0).toNat * 65536 +
    (p.getD (off + 2) 0).toNat * 256 + (p.getD (off + 3) 0).toNat

/-- A field that the server converts in place, `x = ntohs(x)`: on the little-endian
machines it runs on this exchanges the two bytes. -/
def swapField (p : List UInt8) (off : ℕ) : List UInt8 :=
  (p.set off (p.getD (off + 1) 0)).set (off + 1) (p.getD off 0)

@[simp] theorem length_htons (n : ℕ) : (htons n).length = 2 := rfl

@[simp] theorem length_htonl (n : ℕ) : (htonl n).length = 4 := rfl

@[simp] theorem length_swapField (p : List UInt8) (off : ℕ) :
    (swapField p off).length = p.length := by
  simp [swapField]

/-- A field behind a prefix of the packet. -/
theorem ntohs_append (pre p : List UInt8) (off : ℕ) :
    ntohs (pre ++ p) (pre.length + off) = ntohs p off := by
  simp only [ntohs, List.getD_eq_getElem?_getD, Nat.add_assoc,
    List.getElem?_append_right (Nat.le_add_right _ _), Nat.add_sub_cancel_left]

theorem getD_append_left {p : List UInt8} {i : ℕ} (h : i < p.length) (post : List UInt8) :
    (p ++ post).getD i 0 = p.getD i 0 := by
  rw [List.getD_eq_getElem?_getD, List.getElem?_append_left h, List.getD_eq_getElem?_getD]

/-- A field inside a packet does not depend on what follows the packet. -/
theorem ntohs_append_left {p : List UInt8} {off : ℕ} (h : off + 2 ≤ p.length)
    (post : List UInt8) : ntohs (p ++ post) off = ntohs p off := by
  rw [ntohs, getD_append_left (by omega), getD_append_left (by omega), ntohs]

theorem ntohl_append_left {p : List UInt8} {off : ℕ} (h : off + 4 ≤ p.length)
    (post : List UInt8) : ntohl (p ++ post) off = ntohl p off := by
  rw [ntohl, getD_append_left (by omega), getD_append_left (by omega),
    getD_append_left (by omega), getD_append_left (by omega), ntohl]

/-- A 16-bit number survives the wire. -/
theorem ntohs_htons {n : ℕ} (h : n < 65536) (post : List UInt8) :
    ntohs (htons n ++ post) 0 = n := by
  simp only [ntohs, htons, List.cons_append, List.nil_append, List.getD_cons_zero,
    List.getD_cons_succ, UInt8.toNat_ofNat']
  omega

/-- A 32-bit number survives the wire. -/
theorem ntohl_htonl {n : ℕ} (h : n < 4294967296) (post : List UInt8) :
    ntohl (htonl n ++ post) 0 = n := by
  simp only [ntohl, htonl, List.cons_append, List.nil_append, List.getD_cons_zero,
    List.getD_cons_succ, UInt8.toNat_ofNat']
  omega

end XGrey
