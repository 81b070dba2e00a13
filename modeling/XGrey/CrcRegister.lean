import XGrey.FailOpen
import XGrey.Lib.ShiftRegister

/-!
# The Checksum as a Register

The table-driven `crc32` of `common/crc32.c` is the feedback shift register of the CRC-32
with the bits of every byte from the lowest up, for each of the 256 entries of its table. So
it does not lose anything, neither the register before a block nor up to four bytes of the
block, and a packet that was changed in up to four bytes in a row does not pass the check of
whoever receives it.

## Main results

* `toBitVec_crcBytes`: `crc32` is the register.
* `checksum_ne`: the checksums of two texts that differ in up to four bytes in a row.
* `crc32_detects`: what this means for packets.
-/

open CRuntime ShiftRegister

namespace XGrey

/-- The polynomial of `common/crc32.c`, in reverse. -/
def crcPoly : BitVec 32 := 0xEDB88320#32

/-- The bits of a byte, the lowest first. -/
def byteBits (b : UInt8) : List Bool := (List.range 8).map b.toBitVec.getLsbD

/-- The bits of a message. -/
def messageBits (bytes : List UInt8) : List Bool := bytes.flatMap byteBits

/-- **Every entry of the table** is what eight shifts make of its index. -/
theorem mCrc32Table_eq : ∀ i < 256,
    (mCrc32Table.getD i 0).toBitVec = (shift crcPoly)^[8] (BitVec.ofNat 32 i) := by
  decide +kernel

theorem word_byteBits (b : UInt8) : word 32 (byteBits b) = b.toBitVec.setWidth 32 := by
  refine BitVec.eq_of_getLsbD_eq fun i hi => ?_
  rw [getLsbD_word hi, BitVec.getLsbD_setWidth]
  by_cases h : i < 8
  · simp [byteBits, hi, h]
  · simp [byteBits, h, BitVec.getLsbD_of_ge _ i (not_lt.mp h)]

/-- The index into the table is the low byte of the sum. -/
theorem tableIndex_eq (crc : UInt32) (b : UInt8) :
    ((crc ^^^ b.toUInt32) &&& 0xFF).toNat =
      ((crc.toBitVec ^^^ b.toBitVec.setWidth 32).setWidth 8).toNat := by
  rw [BitVec.toNat_setWidth, UInt32.toNat_and, ← Nat.and_two_pow_sub_one_eq_mod]
  rfl

/-- **One byte** of the table-driven update is eight bits of the register. -/
theorem toBitVec_crcByte (crc : UInt32) (b : UInt8) :
    (crcByte crc b).toBitVec = run crcPoly crc.toBitVec (byteBits b) := by
  have hlen : (byteBits b).length = 8 := by simp [byteBits]
  have hindex := tableIndex_eq crc b
  have hlt : ((crc ^^^ b.toUInt32) &&& 0xFF).toNat < 256 := hindex ▸ BitVec.isLt _
  -- a byte has no bits beyond the eight that are shifted out
  have hrest : (crc >>> 8).toBitVec = (crc.toBitVec ^^^ b.toBitVec.setWidth 32) >>> 8 := by
    have hmoved : (b.toBitVec.setWidth 32) >>> 8 = 0#32 := by
      refine BitVec.eq_of_getLsbD_eq fun i _ => ?_
      simp
    rw [BitVec.ushiftRight_xor_distrib, hmoved, BitVec.xor_zero]
    rfl
  rw [run_eq_iterate _ (by omega), hlen, word_byteBits, iterate_shift_eq, crcByte,
    UInt32.toBitVec_xor, mCrc32Table_eq _ hlt, hindex, BitVec.ofNat_toNat, hrest]

/-- The table-driven update is the register. -/
theorem toBitVec_crcBytes (crc : UInt32) (bytes : List UInt8) :
    (crcBytes crc bytes).toBitVec = run crcPoly crc.toBitVec (messageBits bytes) := by
  induction bytes generalizing crc with
  | nil => rfl
  | cons b bytes ih =>
      rw [messageBits, List.flatMap_cons, run_append, ← toBitVec_crcByte]
      exact ih (crcByte crc b)

/-! ### Changes -/

/-- Two texts of one length that differ, in at most `n` bytes in a row. -/
def DiffersWithin (n : ℕ) (text text' : List UInt8) : Prop :=
  ∃ front burst burst' back, text = front ++ (burst ++ back) ∧
    text' = front ++ (burst' ++ back) ∧ burst.length = burst'.length ∧ burst.length ≤ n ∧
    burst ≠ burst'

theorem DiffersWithin.append {n : ℕ} {text text' : List UInt8} (h : DiffersWithin n text text')
    (more : List UInt8) : DiffersWithin n (text ++ more) (text' ++ more) := by
  obtain ⟨front, burst, burst', back, rfl, rfl, hlen, hle, hne⟩ := h
  exact ⟨front, burst, burst', back ++ more, by simp, by simp, hlen, hle, hne⟩

theorem DiffersWithin.length_eq {n : ℕ} {text text' : List UInt8}
    (h : DiffersWithin n text text') : text.length = text'.length := by
  obtain ⟨front, burst, burst', back, rfl, rfl, hlen, -, -⟩ := h
  simp [hlen]

theorem DiffersWithin.pos {n : ℕ} {text text' : List UInt8} (h : DiffersWithin n text text') :
    0 < text.length := by
  obtain ⟨front, burst, burst', back, rfl, rfl, hlen, -, hne⟩ := h
  cases burst with
  | nil => exact absurd (List.length_eq_zero_iff.mp hlen.symm).symm hne
  | cons b burst =>
      simp only [List.length_append, List.length_cons]
      omega

@[simp] theorem length_byteBits (b : UInt8) : (byteBits b).length = 8 := by simp [byteBits]

theorem byteBits_injective : Function.Injective byteBits := by
  intro b b' h
  have hword : b.toBitVec.setWidth 32 = b'.toBitVec.setWidth 32 := by
    rw [← word_byteBits, ← word_byteBits, h]
  have hbits := congrArg (BitVec.setWidth 8) hword
  exact UInt8.toBitVec_inj.mp (by simpa using hbits)

theorem messageBits_append (bytes bytes' : List UInt8) :
    messageBits (bytes ++ bytes') = messageBits bytes ++ messageBits bytes' :=
  List.flatMap_append

theorem length_messageBits (bytes : List UInt8) :
    (messageBits bytes).length = 8 * bytes.length := by
  induction bytes with
  | nil => rfl
  | cons b bytes ih =>
      rw [messageBits, List.flatMap_cons, List.length_append, length_byteBits, ← messageBits, ih,
        List.length_cons]
      omega

theorem messageBits_injective : Function.Injective messageBits := by
  intro bytes bytes' h
  induction bytes generalizing bytes' with
  | nil =>
      have hlen := congrArg List.length h
      rw [length_messageBits, length_messageBits, List.length_nil] at hlen
      exact (List.length_eq_zero_iff.mp (by omega)).symm
  | cons b bytes ih =>
      cases bytes' with
      | nil =>
          have hlen := congrArg List.length h
          rw [length_messageBits, length_messageBits, List.length_nil, List.length_cons] at hlen
          omega
      | cons b' bytes' =>
          obtain ⟨hbyte, hrest⟩ := List.append_inj h (by simp)
          rw [byteBits_injective hbyte, ih hrest]

/-- The checksum is one block of the packet and the secret. -/
theorem checksum_eq (secret body : List UInt8) :
    checksum secret body = crcBytes initCrc32 (body ++ secret) :=
  List.foldl_append.symm

/-- **A change of up to four bytes in a row** changes the register. -/
theorem crcBytes_ne (crc : UInt32) {text text' : List UInt8} (h : DiffersWithin 4 text text') :
    crcBytes crc text ≠ crcBytes crc text' := by
  obtain ⟨front, burst, burst', back, rfl, rfl, hlen, hle, hne⟩ := h
  intro heq
  have hbits := congrArg UInt32.toBitVec heq
  rw [toBitVec_crcBytes, toBitVec_crcBytes, messageBits_append, messageBits_append,
    messageBits_append, messageBits_append] at hbits
  refine run_ne_of_burst (by decide) _ _ _ ?_ ?_ (messageBits_injective.ne hne) hbits
  · rw [length_messageBits, length_messageBits, hlen]
  · rw [length_messageBits]
    omega

/-- It changes the checksum, whatever the secret. -/
theorem checksum_ne (secret : List UInt8) {body body' : List UInt8}
    (h : DiffersWithin 4 body body') : checksum secret body ≠ checksum secret body' := by
  rw [checksum_eq, checksum_eq]
  exact crcBytes_ne initCrc32 (h.append secret)

/-! ### Packets -/

/-- A packet with the checksum field of another that verifies. -/
theorem not_verified_of_change {cfg : Config} {packet packet' : List UInt8}
    (hok : Verified cfg packet) (hcrc : packet'.take 4 = packet.take 4)
    (h : DiffersWithin 4 (packet.drop 4) (packet'.drop 4)) : ¬ Verified cfg packet' := by
  have hpos := h.pos
  have hlen := h.length_eq
  rw [List.length_drop] at hpos
  rw [List.length_drop, List.length_drop] at hlen
  have hfield : ntohl packet' 0 = ntohl packet 0 := by
    rw [← List.take_append_drop 4 packet', ← List.take_append_drop 4 packet,
      ntohl_append_left (by rw [List.length_take]; omega),
      ntohl_append_left (by rw [List.length_take]; omega), hcrc]
  intro hok'
  rw [Verified, hfield, ← hok] at hok'
  exact checksum_ne cfg.secret h (UInt32.toNat_inj.mp hok'.symm)

/-- The daemon drops a packet that does not verify. -/
theorem gldRecv_of_not_verified (cfg : Config) (srv : Server) (buf : List UInt8) (d : Datagram)
    (hlen : 5 ≤ (d.data.take 1500).length) (h : ¬ Verified cfg (d.data.take 1500)) :
    gldRecv cfg srv buf d = .ok ([], srv, (d.request buf).packet) := by
  have hrequest : ∀ now clock canReport,
      (Datagram.mk (d.data.take 1500) now clock canReport).request buf =
        (Datagram.mk d.data now clock canReport).request buf := fun now clock canReport => by
    simp only [Datagram.request, recvfrom_take]
  have hdrop := gldRecv_of_mismatch cfg srv buf
    (d := ⟨d.data.take 1500, d.now, d.clock, d.canReport⟩) (List.length_take_le _ _) hlen h
  rw [gldRecv] at hdrop ⊢
  rwa [hrequest] at hdrop

/-- A client takes a packet that does not verify for `ACCEPT`. -/
theorem clientVerdict_of_not_verified (cfg : Config) (accepts : ℕ → Bool) (buf : List UInt8)
    {data : List UInt8} (hlen : 5 ≤ (data.take 1500).length)
    (h : ¬ Verified cfg (data.take 1500)) :
    clientVerdict cfg accepts buf data = .ok Ift.accept := by
  obtain ⟨v, hv, rfl⟩ := (checkGreylist_iff (P := (· = Ift.accept)) rfl data).mpr
    ⟨Or.inl hlen, fun hverified => absurd hverified h⟩
  exact clientVerdict_of_checkGreylist hlen hv buf

/-- **The checksum.** Over any block `crc32` is the register of the CRC-32, without a final
inversion, and a block may be given in parts. So for any secret a packet that verifies does
not do so any more when up to four bytes in a row have changed behind its checksum field:
the daemon drops it, and a client does not look at what it says. -/
theorem crc32_detects :
    (∀ ndebug crc (data : List UInt8), data ≠ [] → crc32 ndebug crc data data.length =
      .ok ⟨run crcPoly crc.toBitVec (messageBits data)⟩) ∧
    (∀ ndebug crc (a b : List UInt8), a ≠ [] → b ≠ [] →
      (do
        let crc ← crc32 ndebug crc a a.length
        crc32 ndebug crc b b.length) = crc32 ndebug crc (a ++ b) (a ++ b).length) ∧
    ∀ cfg (data data' : List UInt8), Verified cfg (data.take 1500) →
      data'.take 4 = data.take 4 →
      DiffersWithin 4 ((data.take 1500).drop 4) ((data'.take 1500).drop 4) →
      ¬ Verified cfg (data'.take 1500) ∧
      (∀ srv buf now clock canReport,
        gldRecv cfg srv buf ⟨data', now, clock, canReport⟩ =
          .ok ([], srv, (Datagram.request buf ⟨data', now, clock, canReport⟩).packet)) ∧
      ∀ accepts buf, clientVerdict cfg accepts buf data' = .ok Ift.accept := by
  refine ⟨fun ndebug crc data hdata => ?_, fun ndebug crc a b ha hb => ?_,
    fun cfg data data' hok hcrc h => ?_⟩
  · rw [crc32_eq crc (List.length_pos_iff.mpr hdata) (Nat.le_refl _), List.take_length,
      ← toBitVec_crcBytes]
  · have hpos := List.length_pos_iff.mpr ha
    rw [crc32_eq crc hpos (Nat.le_refl _), ok_bind,
      crc32_eq _ (List.length_pos_iff.mpr hb) (Nat.le_refl _),
      crc32_eq crc (by rw [List.length_append]; omega) (Nat.le_refl _), List.take_length,
      List.take_length, List.take_length, crcBytes, crcBytes, crcBytes, List.foldl_append]
  · have hfield : (data'.take 1500).take 4 = (data.take 1500).take 4 := by
      rw [List.take_take, List.take_take]
      exact hcrc
    have hbad := not_verified_of_change hok hfield h
    have hlen : 5 ≤ (data'.take 1500).length := by
      have hpos := h.pos
      rw [h.length_eq, List.length_drop] at hpos
      omega
    exact ⟨hbad,
      fun srv buf now clock canReport => gldRecv_of_not_verified cfg srv buf _ hlen hbad,
      fun accepts buf => clientVerdict_of_not_verified cfg accepts buf hlen hbad⟩

/-- A packet with a checksum, and one whose last byte has changed. -/
theorem crc32_detects_byte :
    ∃ crc, Verified (Config.default false) (htonl crc ++ [1, 2]) ∧
      ¬ Verified (Config.default false) (htonl crc ++ [1, 3]) := by
  have hok := verified_append (Config.default false) [1, 2]
  generalize (checksum (Config.default false).secret [1, 2]).toNat = crc at hok
  have hfits : ∀ b : UInt8, (htonl crc ++ [1, b]).take 1500 = htonl crc ++ [1, b] := fun b =>
    List.take_of_length_le (by simp)
  have hdetects := crc32_detects.2.2 (Config.default false) (htonl crc ++ [1, 2])
    (htonl crc ++ [1, 3])
  rw [hfits, hfits] at hdetects
  refine ⟨crc, hok, (hdetects hok rfl ?_).1⟩
  exact ⟨[1], [2], [3], [], rfl, rfl, rfl, by decide, by decide⟩

end XGrey
