import XGrey.Server

/-!
# Receiving a Datagram

The receive step of the main loop: which bytes the checksum is computed over, and what
happens to a datagram that does not carry the right one.

## Main results

* `receiveSafe_iff`: the receive step treats a datagram as it should (`ReceiveSafe`)
  exactly when the datagram is longer than the checksum. The length is not tested before
  the size of the checksum is subtracted from it.
* `gldRecv_of_short`: what happens to a shorter one.
* `gldRecv_of_verified`: a datagram with the right checksum is dispatched.
-/

open CRuntime

namespace XGrey

/-! ### The packet buffer -/

theorem packet_request (buf : List UInt8) {d : Datagram} (h : d.data.length ≤ 1500) :
    (d.request buf).packet = d.data ++ buf.drop d.data.length := by
  simp [Datagram.request, recvfrom, List.take_of_length_le h]

theorem size_request (buf : List UInt8) {d : Datagram} (h : d.data.length ≤ 1500) :
    (d.request buf).size = d.data.length := by
  simp [Datagram.request, recvfrom, h]

/-- What does not fit into the packet buffer does not arrive. -/
theorem recvfrom_take (buf data : List UInt8) :
    recvfrom buf (data.take 1500) = recvfrom buf data := by
  rw [recvfrom, recvfrom, List.take_take, Nat.min_self]

/-- The checksum field of a datagram that has one. -/
theorem ntohl_packet_request (buf : List UInt8) {d : Datagram} (h : d.data.length ≤ 1500)
    (hlen : 4 ≤ d.data.length) : ntohl (d.request buf).packet 0 = ntohl d.data 0 := by
  rw [packet_request buf h, ntohl_append_left hlen]

/-- A field of a datagram that is long enough for it. -/
theorem ntohs_packet_request (buf : List UInt8) {d : Datagram} (h : d.data.length ≤ 1500)
    {off : ℕ} (hoff : off + 2 ≤ d.data.length) :
    ntohs (d.request buf).packet off = ntohs d.data off := by
  rw [packet_request buf h, ntohs_append_left hoff]

/-! ### The checksum of a packet -/

/-- From the length of the checksum on, the subtraction does not wrap around. -/
theorem crcSize_of_le {req : Request} (h : 4 ≤ req.size) (h' : req.size ≤ 1500) :
    req.crcSize = req.size - 4 := by
  rw [Request.crcSize, sizeT]
  omega

/-- Below it, it does. -/
theorem crcSize_of_lt {req : Request} (h : req.size < 4) :
    req.crcSize = 18446744073709551612 + req.size := by
  rw [Request.crcSize, sizeT]
  omega

/-- The checksum of a datagram with at least one byte behind its checksum field is
computed over these bytes. -/
theorem crc_request (cfg : Config) (buf : List UInt8) {d : Datagram}
    (h : d.data.length ≤ 1500) (hlen : 5 ≤ d.data.length) :
    (d.request buf).crc cfg = .ok (checksum cfg.secret (d.data.drop 4)) := by
  have hsize := size_request buf h
  have hcrc : (d.request buf).crcSize = d.data.length - 4 := by
    rw [crcSize_of_le (by omega) (by omega), hsize]
  have hdrop : ((d.request buf).packet.drop 4).take (d.data.length - 4) = d.data.drop 4 := by
    rw [packet_request buf h, List.drop_append_of_le_length (by omega),
      List.take_append_of_le_length (by simp), List.take_of_length_le (by simp)]
  have hle : d.data.length - 4 ≤ ((d.request buf).packet.drop 4).length := by
    rw [packet_request buf h, List.length_drop, List.length_append]
    omega
  rw [Request.crc, hcrc, crc32_crc32 cfg.ndebug (by omega) hle cfg.secret_ne, hdrop]

/-- A packet whose checksum verifies. -/
def Verified (cfg : Config) (packet : List UInt8) : Prop :=
  (checksum cfg.secret (packet.drop 4)).toNat = ntohl packet 0

/-- A packet that was given its checksum verifies. -/
theorem verified_append (cfg : Config) (body : List UInt8) :
    Verified cfg (htonl (checksum cfg.secret body).toNat ++ body) :=
  (ntohl_htonl (crc_lt _) body).symm

/-! ### The receive step -/

/-- A datagram whose checksum does not verify is dropped. -/
theorem gldRecv_of_mismatch (cfg : Config) (srv : Server) (buf : List UInt8) {d : Datagram}
    (h : d.data.length ≤ 1500) (hlen : 5 ≤ d.data.length)
    (hcrc : (checksum cfg.secret (d.data.drop 4)).toNat ≠ ntohl d.data 0) :
    gldRecv cfg srv buf d = .ok ([], srv, (d.request buf).packet) := by
  rw [← ntohl_packet_request buf h (by omega)] at hcrc
  rw [gldRecv]
  dsimp only
  rw [crc_request cfg buf h hlen, ok_bind, if_pos hcrc]

/-- A datagram whose checksum verifies and whose version is known is dispatched by its
type. -/
theorem gldRecv_of_verified (cfg : Config) (srv : Server) (buf : List UInt8) {d : Datagram}
    (h : d.data.length ≤ 1500) (hlen : 5 ≤ d.data.length)
    (hcrc : (checksum cfg.secret (d.data.drop 4)).toNat = ntohl d.data 0)
    (hversion : ntohs (d.request buf).packet 4 ≤ version) :
    gldRecv cfg srv buf d = (do
      let (out, srv, req) ← dispatch cfg srv ((d.request buf).swapField 8) d.canReport
        (Cmd.ofCode (ntohs (d.request buf).packet 8))
      .ok (out, srv, req.packet)) := by
  rw [← ntohl_packet_request buf h (by omega)] at hcrc
  rw [gldRecv]
  dsimp only
  rw [crc_request cfg buf h hlen, ok_bind, if_neg (not_not.mpr hcrc),
    if_neg (not_lt.mpr hversion)]

/-- A datagram of a later version is answered with an error. -/
theorem gldRecv_of_version (cfg : Config) (srv : Server) (buf : List UInt8) {d : Datagram}
    (h : d.data.length ≤ 1500) (hlen : 5 ≤ d.data.length) (hcrc : Verified cfg d.data)
    (hversion : version < ntohs (d.request buf).packet 4) :
    gldRecv cfg srv buf d = (do
      let out ← sendReply cfg.ndebug (d.request buf) .noneResp Glerr.versionNotSupported.code
        .none
      .ok (out, srv, (d.request buf).packet)) := by
  rw [Verified, ← ntohl_packet_request buf h (by omega)] at hcrc
  rw [gldRecv]
  dsimp only
  rw [crc_request cfg buf h hlen, ok_bind, if_neg (not_not.mpr hcrc), if_pos hversion]

/-- A datagram shorter than the checksum makes the checksum run out of the buffer. -/
theorem gldRecv_of_short (cfg : Config) (srv : Server) {buf : List UInt8} {d : Datagram}
    (hbuf : buf.length = 1500) (hlen : d.data.length < 4) :
    gldRecv cfg srv buf d = .error .memory := by
  have h : d.data.length ≤ 1500 := by omega
  have hsize := size_request buf h
  have hpacket : (d.request buf).packet.length = 1500 := by
    rw [packet_request buf h, List.length_append, List.length_drop]
    omega
  have hcrc : (d.request buf).crc cfg = .error .memory := by
    rw [Request.crc, crcSize_of_lt (by omega), crc32, cassert_of (by omega), ok_bind,
      if_neg (by rw [List.length_drop]; omega), error_bind]
  rw [gldRecv]
  dsimp only
  rw [hcrc, error_bind]

/-! ### The promise of the receive step -/

/-- What the receive step is meant to do with a datagram. -/
structure ReceiveSafe (cfg : Config) (srv : Server) (buf : List UInt8) (d : Datagram) :
    Prop where
  /-- The size handed to `crc32` is positive. -/
  crcSize_pos : 0 < (d.request buf).crcSize
  /-- It is the length of the datagram without its checksum field. -/
  crcSize_eq : (d.request buf).crcSize + 4 = d.data.length
  /-- The checksum is computed over received bytes only. -/
  crc_eq : (d.request buf).crc cfg = .ok (checksum cfg.secret (d.data.drop 4))
  /-- A datagram that is too short or whose checksum does not verify is dropped: nothing
  fails, nothing is sent and the server stays as it is. -/
  dropped : d.data.length ≤ 4 ∨ (checksum cfg.secret (d.data.drop 4)).toNat ≠ ntohl d.data 0 →
    gldRecv cfg srv buf d = .ok ([], srv, (d.request buf).packet)

/-- **The receive step** does what it is meant to do, in any state of the server, exactly
on the datagrams that have at least one byte behind the checksum field. -/
theorem receiveSafe_iff (cfg : Config) (srv : Server) (buf : List UInt8) (d : Datagram)
    (h : d.data.length ≤ 1500) : ReceiveSafe cfg srv buf d ↔ 5 ≤ d.data.length := by
  constructor
  · intro hsafe
    have hpos := hsafe.crcSize_pos
    have heq := hsafe.crcSize_eq
    omega
  · intro hlen
    have hsize := size_request buf h
    have hcrc : (d.request buf).crcSize = d.data.length - 4 := by
      rw [crcSize_of_le (by omega) (by omega), hsize]
    refine ⟨by omega, by omega, crc_request cfg buf h hlen, ?_⟩
    rintro (hshort | hne)
    · omega
    · exact gldRecv_of_mismatch cfg srv buf h hlen hne

/-- The first byte behind the checksum field is enough. -/
theorem receiveSafe_iff_five :
    ReceiveSafe (Config.default false) (Server.init (Config.default false) 0)
        (List.replicate 1500 0)
        { data := [0, 0, 0, 0, 7], now := 0, clock := 0, canReport := true } ↔
      5 ≤ [0, 0, 0, 0, 7].length :=
  receiveSafe_iff _ _ _ _ (by decide)

/-- The empty datagram makes the server read beyond its packet buffer, instead of being
dropped. -/
theorem not_receiveSafe_nil :
    gldRecv (Config.default false) (Server.init (Config.default false) 0)
        (List.replicate 1500 0) { data := [], now := 0, clock := 0, canReport := true } =
      .error .memory ∧
    ¬ ReceiveSafe (Config.default false) (Server.init (Config.default false) 0)
        (List.replicate 1500 0) { data := [], now := 0, clock := 0, canReport := true } := by
  have hfault : gldRecv (Config.default false) (Server.init (Config.default false) 0)
      (List.replicate 1500 0) { data := [], now := 0, clock := 0, canReport := true } =
      .error .memory := gldRecv_of_short _ _ List.length_replicate (by decide)
  refine ⟨hfault, fun hsafe => ?_⟩
  have hdropped := hsafe.dropped (Or.inl (by decide))
  rw [hfault] at hdropped
  cases hdropped

end XGrey
