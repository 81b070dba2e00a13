import XGrey.Server
import XGrey.TupleCheck

/-!
# Accepting a Request

When `greylist_sanitize_req` accepts a packet and what tuple it makes of it.

## Main results

* `greylistSanitizeReq_of_accepts`, `greylistSanitizeReq_of_not_accepts`: a packet is
  accepted exactly when its address size is one of two and its fields fit into what was
  received (`Accepts`); any other is answered with an error.
* `freshTuple_requestTuple`: the tuple of a request is one as the store expects it.
-/

open CRuntime

namespace XGrey

/-- The field `ipsize` of a packet as it was received. -/
def Request.ipsize (req : Request) : ℕ := ntohs req.packet 10

/-- The field `fromsize` of a packet as it was received. -/
def Request.fromsize (req : Request) : ℕ := ntohs req.packet 12

/-- The field `tosize` of a packet as it was received. -/
def Request.tosize (req : Request) : ℕ := ntohs req.packet 14

/-- The `n` bytes at an offset of a packet. -/
def Request.bytes (req : Request) (off n : ℕ) : List UInt8 := (req.packet.drop off).take n

/-- The request after the conversion of its sizes. -/
def Request.converted (req : Request) : Request :=
  ((req.swapField 10).swapField 12).swapField 14

/-- The tuple of a request. -/
def Request.tuple (cfg : Config) (req : Request) : Tuple :=
  requestTuple cfg.ndebug req.now (req.bytes 16 req.ipsize)
    (req.bytes (16 + req.ipsize) (min 107 req.fromsize))
    (req.bytes (16 + req.ipsize + req.fromsize) (min 107 req.tosize))
    req.ipsize req.fromsize req.tosize

/-- The packet has an address of one of the two sizes, and its fields lie inside what was
received. -/
def Request.Accepts (req : Request) : Prop :=
  (req.ipsize = 4 ∨ req.ipsize = 16) ∧
    16 + req.ipsize + req.fromsize + req.tosize ≤ req.size

instance (req : Request) : Decidable req.Accepts :=
  inferInstanceAs (Decidable (_ ∧ _))

/-- The reply that answers a request. -/
def Request.reply (req : Request) (type : Cmd) (response : ℤ) (why : Reason) : Output :=
  .reply { mta := req.bytes 6 2, type := type, response := response, why := why }

/-! ### The converted packet -/

/-- Converting a field in place leaves what lies behind it alone. -/
theorem drop_swapField (p : List UInt8) {off n : ℕ} (h : off + 2 ≤ n) :
    (swapField p off).drop n = p.drop n := by
  simp only [swapField, List.drop_set]
  rw [if_pos (by omega), if_pos (by omega)]

/-- And what lies in front of it. -/
theorem take_swapField (p : List UInt8) {off n : ℕ} (h : n ≤ off) :
    (swapField p off).take n = p.take n := by
  simp only [swapField, List.take_set]
  rw [List.set_eq_of_length_le (by simp; omega), List.set_eq_of_length_le (by simp; omega)]

@[simp] theorem length_packet_converted (req : Request) :
    req.converted.packet.length = req.packet.length := by
  simp [Request.converted, Request.swapField]

/-- The data of a request lie behind the fields that are converted. -/
theorem bytes_converted_of_le (req : Request) {off : ℕ} (h : 16 ≤ off) (n : ℕ) :
    req.converted.bytes off n = req.bytes off n := by
  simp only [Request.bytes, Request.converted, Request.swapField]
  rw [drop_swapField _ (by omega), drop_swapField _ (by omega), drop_swapField _ (by omega)]

/-- Bytes in front of a field that is converted. -/
theorem bytes_swapField (req : Request) {off n off' : ℕ} (h : off + n ≤ off') :
    (req.swapField off').bytes off n = req.bytes off n := by
  rw [Request.bytes, Request.bytes, List.take_drop, List.take_drop, Request.swapField,
    take_swapField _ (by omega)]

/-- The sender of a request lies in front of the sizes. -/
theorem mta_converted (req : Request) : req.converted.bytes 6 2 = req.bytes 6 2 := by
  rw [Request.converted, bytes_swapField _ (by omega), bytes_swapField _ (by omega),
    bytes_swapField _ (by omega)]

/-- A reply copies the field `MTA`, which lies in front of all that is converted. -/
theorem reply_swapField (req : Request) {off : ℕ} (h : 8 ≤ off) (type : Cmd)
    (response : ℤ) (why : Reason) :
    (req.swapField off).reply type response why = req.reply type response why := by
  rw [Request.reply, bytes_swapField _ (by omega), Request.reply]

/-- A reply that an assertion lets through. -/
theorem sendReply_eq {ndebug : Bool} (req : Request) (type : Cmd) {response : ℤ}
    (h : 0 ≤ response) (why : Reason) :
    sendReply ndebug req type response why = .ok [req.reply type response why] := by
  rw [sendReply, cassert_of h, ok_bind]
  rfl

theorem reply_converted (req : Request) (type : Cmd) (response : ℤ) (why : Reason) :
    req.converted.reply type response why = req.reply type response why := by
  simp only [Request.reply, mta_converted]

/-- A reply that was sent. -/
theorem sendReply_inv {ndebug : Bool} {req : Request} {type : Cmd} {response : ℤ}
    {why : Reason} {out : List Output} (h : sendReply ndebug req type response why = .ok out) :
    out = [req.reply type response why] := by
  rw [sendReply] at h
  obtain ⟨_, -, h⟩ := bind_eq_ok.mp h
  cases h
  rfl

/-! ### The two outcomes -/

/-- **A request that is not accepted** is answered with an error. -/
theorem greylistSanitizeReq_of_not_accepts (cfg : Config) {req : Request}
    (h : ¬ req.Accepts) :
    greylistSanitizeReq cfg req =
      .ok (req.converted, .inl [req.reply .noneResp Glerr.badData.code .none]) := by
  have hsend : sendReply cfg.ndebug req.converted .noneResp Glerr.badData.code .none =
      .ok [req.reply .noneResp Glerr.badData.code .none] := by
    rw [sendReply_eq _ _ (by decide), reply_converted]
  rw [greylistSanitizeReq]
  change (if req.ipsize ≠ 4 ∧ req.ipsize ≠ 16 then
      sendReply cfg.ndebug req.converted _ _ _ >>= _
    else if req.ipsize + req.fromsize + req.tosize + 20 - 4 > req.size then
      sendReply cfg.ndebug req.converted _ _ _ >>= _
    else _) = _
  rw [hsend, ok_bind]
  by_cases hip : req.ipsize ≠ 4 ∧ req.ipsize ≠ 16
  · rw [if_pos hip]
    rfl
  · have hsize : req.ipsize + req.fromsize + req.tosize + 20 - 4 > req.size := by
      by_contra hle
      exact h ⟨by omega, by omega⟩
    rw [if_neg hip, if_pos hsize]
    rfl

/-- A copy inside the packet. -/
theorem memcpyField_eq {req : Request} {off n cap : ℕ} (hoff : 16 ≤ off)
    (hlen : off + n ≤ req.packet.length) (hcap : n ≤ cap) :
    memcpyField req.converted.packet off n cap = .ok (req.bytes off n) := by
  rw [memcpyField, if_pos ⟨by rwa [length_packet_converted], hcap⟩]
  exact congrArg Except.ok (bytes_converted_of_le req hoff n)

/-- **A request that is accepted** becomes its tuple; every copy stays inside what was
received and inside the field it goes to. -/
theorem greylistSanitizeReq_of_accepts (cfg : Config) {req : Request}
    (h : req.Accepts) :
    greylistSanitizeReq cfg req = .ok (req.converted, .inr (req.tuple cfg)) := by
  obtain ⟨hip, hfit⟩ := h
  have hsize := req.size_le
  have hfrom : min 107 req.fromsize ≤ req.fromsize := Nat.min_le_right ..
  have hto : min 107 req.tosize ≤ req.tosize := Nat.min_le_right ..
  have hfrom' : min 107 req.fromsize ≤ 107 := Nat.min_le_left ..
  have hto' : min 107 req.tosize ≤ 107 := Nat.min_le_left ..
  rw [greylistSanitizeReq]
  change (if req.ipsize ≠ 4 ∧ req.ipsize ≠ 16 then _
    else if req.ipsize + req.fromsize + req.tosize + 20 - 4 > req.size then _
    else memcpyField req.converted.packet 16 req.ipsize 16 >>= fun ip =>
      memcpyField req.converted.packet (16 + req.ipsize) (min 107 req.fromsize) 108 >>=
        fun sender =>
          memcpyField req.converted.packet (16 + req.ipsize + req.fromsize)
            (min 107 req.tosize) 108 >>= _) = _
  rw [if_neg (by omega), if_neg (by omega), memcpyField_eq (by omega) (by omega) (by omega),
    ok_bind, memcpyField_eq (by omega) (by omega) (by omega), ok_bind,
    memcpyField_eq (by omega) (by omega) (by omega), ok_bind]
  rfl

/-! ### The tuple of a request -/

/-- The used part of a buffer that was filled with some bytes. -/
theorem take_buffer {n k : ℕ} {bytes : List UInt8} (hlen : bytes.length = k) (hk : k ≤ n) :
    (buffer n bytes).toList.take k = bytes := by
  rw [← hlen]
  exact take_toList_buffer (hlen.trans_le hk)

theorem length_bytes {req : Request} {off n : ℕ} (h : off + n ≤ req.packet.length) :
    (req.bytes off n).length = n := by
  rw [Request.bytes, List.length_take, List.length_drop]
  omega

/-- The flags that a request sets are not those of the store. -/
theorem hasFlag_requestTuple (ndebug : Bool) (now : ℤ) (ip sender recipient : List UInt8)
    (ipsize fromsize tosize : ℕ) (flag : Flags) :
    hasFlag (requestTuple ndebug now ip sender recipient ipsize fromsize tosize).f flag =
      ((decide (107 < fromsize) && hasFlag fTruncfrom flag) ||
        (decide (107 < tosize) && hasFlag fTruncto flag) ||
        (decide (ipsize = 16) && hasFlag fIPv6 flag)) := by
  have hfrom : min 107 fromsize < fromsize ↔ 107 < fromsize := by omega
  have hto : min 107 tosize < tosize ↔ 107 < tosize := by omega
  simp only [requestTuple, hasFlag_or, hfrom, hto]
  congr 1
  · congr 1
    · by_cases h : 107 < fromsize <;> simp [h]
    · by_cases h : 107 < tosize <;> simp [h]
  · by_cases h : ipsize = 16 <;> simp [h]

/-- The tuple of a request is fresh. -/
theorem freshTuple_requestTuple (cfg : Config) (req : Request) :
    FreshTuple cfg req.now (req.tuple cfg) where
  ctime := rfl
  atime := rfl
  whitelisted := by
    rw [Tuple.whitelisted, Request.tuple, hasFlag_requestTuple]
    simp [hasFlag, fTruncfrom, fWhitelist, fTruncto, fIPv6]
  removed := by
    rw [Tuple.removed, Request.tuple, hasFlag_requestTuple]
    simp [hasFlag, fTruncfrom, fRemove, fTruncto, fIPv6]
  pad := by
    cases h : cfg.ndebug with
    | true => exact Or.inl rfl
    | false => exact Or.inr (by simp [Request.tuple, requestTuple, h])

end XGrey
