import XGrey.Formats
import XGrey.Lib.TextFile
import XGrey.LiveTuples

/-!
# Saving the Whitelist

`whitelist_dump_stream` of `server/tuple.c`, which writes a line for every live tuple that is
whitelisted and not marked for removal, and what `whitelist_load` makes of the file.

The format has room for the first four bytes of an address only, ends a text at its first
zero byte, and takes a blank, a newline, a dash and white space at the end of a line for
something else than a part of an address. A tuple that has nothing of this is `Clean`.

## Main results

* `whitelistDumpStream_eq`: what is written.
* `run_whitelist_reload`: in every state that the server reaches, the whitelist is restored
  from the file exactly when all tuples that are written to it are clean.
-/

open CRuntime StepRun TextFile Lexicographic

namespace XGrey

/-! ### Writing -/

/-- The test of `whitelist_dump_stream`. -/
def Tuple.dumped (t : Tuple) : Bool := t.f &&& (fWhitelist ||| fRemove) == fWhitelist

/-- A text of a line: `-` stands for an empty one. -/
def dumpField (size : ℕ) (field : Vector UInt8 108) : Exec (List UInt8) :=
  if size ≠ 0 then cstring field.toList else .ok (ascii "-")

/-- The line for a tuple, with its newline. -/
def whitelistDumpLine (t : Tuple) : Exec (List UInt8) := do
  let sender ← dumpField t.fromsize t.fromText
  let recipient ← dumpField t.tosize t.toText
  .ok (ipv4 t.ip ++ 32 :: (sender ++ 32 :: (recipient ++ [10])))

/-- The loop of `whitelist_dump_stream`. -/
def whitelistDumpLoop : List Tuple → Exec (List UInt8)
  | [] => .ok []
  | t :: tuples =>
      if t.dumped then do
        let line ← whitelistDumpLine t
        let text ← whitelistDumpLoop tuples
        .ok (line ++ text)
      else whitelistDumpLoop tuples

/-- `whitelist_dump_stream` -/
def whitelistDumpStream (s : TupleSpace) : Exec (List UInt8) := whitelistDumpLoop s.liveTuples

/-- A single flag is set as a whole or not at all. -/
theorem and_flag (f : Flags) (i : ℕ) :
    f &&& 1#32 <<< i = 0#32 ∨ f &&& 1#32 <<< i = 1#32 <<< i := by
  rw [← BitVec.twoPow_eq, BitVec.and_twoPow]
  split_ifs
  · exact Or.inr rfl
  · exact Or.inl rfl

/-- **What is written** are the tuples that are whitelisted and not marked for removal. -/
theorem Tuple.dumped_iff (t : Tuple) :
    t.dumped = true ↔ t.whitelisted = true ∧ t.removed = false := by
  rw [Tuple.dumped, Tuple.whitelisted, Tuple.removed, hasFlag, hasFlag, beq_iff_eq, bne_iff_ne,
    bne_eq_false_iff_eq, BitVec.and_or_distrib_left]
  rcases and_flag t.f 0 with hwhite | hwhite <;> rcases and_flag t.f 1 with hremove | hremove
  · rw [fWhitelist, fRemove, hwhite, hremove]
    decide
  · rw [fWhitelist, fRemove, hwhite, hremove]
    decide
  · rw [fWhitelist, fRemove, hwhite, hremove]
    decide
  · rw [fWhitelist, fRemove, hwhite, hremove]
    decide

/-- The texts of a tuple end inside their buffers. -/
structure Tuple.Padded (t : Tuple) : Prop where
  sender : t.fromText = buffer 108 t.fromBytes
  recipient : t.toText = buffer 108 t.toBytes

theorem lasting_padded : Lasting Tuple.Padded where
  setFlag _ _ _ h := ⟨h.sender, h.recipient⟩
  touch _ _ h := ⟨h.sender, h.recipient⟩

/-- What is written for a text. -/
def fieldText (bytes : List UInt8) : List UInt8 :=
  if bytes = [] then ascii "-" else bytes.takeWhile (· ≠ 0)

/-- The line for a tuple, without its newline. -/
def Tuple.dumpLine (t : Tuple) : List UInt8 :=
  ipv4 t.ip ++ 32 :: (fieldText t.fromBytes ++ 32 :: fieldText t.toBytes)

theorem dumpField_eq {bytes : List UInt8} (h : bytes.length ≤ 107) :
    dumpField bytes.length (buffer 108 bytes) = .ok (fieldText bytes) := by
  rw [dumpField, fieldText]
  by_cases hnil : bytes = []
  · rw [if_pos hnil, if_neg (not_not.mpr (List.length_eq_zero_iff.mpr hnil))]
  · have hlen : bytes.length ≠ 0 := fun h0 => hnil (List.length_eq_zero_iff.mp h0)
    rw [if_neg hnil, if_pos hlen, cstring_eq (zero_mem_buffer (by omega)),
      takeWhile_buffer (by omega)]

theorem whitelistDumpLine_eq {t : Tuple} (h : t.Padded) :
    whitelistDumpLine t = .ok (t.dumpLine ++ [10]) := by
  have hsender := dumpField_eq (t.length_fromBytes.trans_le t.fromsize_le)
  have hrecipient := dumpField_eq (t.length_toBytes.trans_le t.tosize_le)
  rw [← h.sender, t.length_fromBytes] at hsender
  rw [← h.recipient, t.length_toBytes] at hrecipient
  rw [whitelistDumpLine, hsender, ok_bind, hrecipient, ok_bind, Tuple.dumpLine]
  simp only [List.append_assoc, List.cons_append]

/-- The tuples that are written. -/
def TupleSpace.dumpedTuples (s : TupleSpace) : List Tuple := s.liveTuples.filter Tuple.dumped

theorem whitelistDumpLoop_eq {tuples : List Tuple} (h : ∀ t ∈ tuples, t.Padded) :
    whitelistDumpLoop tuples =
      .ok ((tuples.filter Tuple.dumped).flatMap fun t => t.dumpLine ++ [10]) := by
  induction tuples with
  | nil => rfl
  | cons t tuples ih =>
      obtain ⟨ht, hrest⟩ := List.forall_mem_cons.mp h
      rw [whitelistDumpLoop]
      by_cases hdumped : t.dumped = true
      · rw [if_pos hdumped, whitelistDumpLine_eq ht, ok_bind, ih hrest, ok_bind,
          List.filter_cons_of_pos hdumped, List.flatMap_cons]
      · rw [if_neg hdumped, ih hrest, List.filter_cons_of_neg hdumped]

/-- **The file** has a line for each tuple that is written. -/
theorem whitelistDumpStream_eq {s : TupleSpace} (h : ∀ t ∈ s.liveTuples, t.Padded) :
    whitelistDumpStream s = .ok (s.dumpedTuples.flatMap fun t => t.dumpLine ++ [10]) :=
  whitelistDumpLoop_eq h

/-! ### What can be read back -/

/-- The parts of the line of a tuple can be told apart, and say what they were written
for. -/
structure Tuple.Separable (t : Tuple) : Prop where
  ip : ∀ c ∈ t.ip.toList.drop 4, c = 0
  sender : ∀ c ∈ t.fromBytes, c ≠ 0 ∧ c ≠ 10 ∧ c ≠ 32
  sender_ne : t.fromBytes ≠ ascii "-"
  recipient : ∀ c ∈ t.toBytes, c ≠ 0 ∧ c ≠ 10
  recipient_ne : t.toBytes ≠ ascii "-"

/-- A tuple that the file brings back: the address is one of four bytes, the sender has no
zero byte, no newline and no blank in it, the recipient has no zero byte and no newline and
does not end with white space, and neither of them is a dash. -/
structure Tuple.Clean (t : Tuple) : Prop extends t.Separable where
  recipient_last : ∀ c ∈ t.toBytes.getLast?, isspace c = false

instance Tuple.decidableSeparable (t : Tuple) : Decidable t.Separable :=
  decidable_of_iff ((t.ip.toList.drop 4).all (· == 0) = true ∧
      t.fromBytes.all (fun c => c != 0 && c != 10 && c != 32) = true ∧
      t.fromBytes ≠ ascii "-" ∧ t.toBytes.all (fun c => c != 0 && c != 10) = true ∧
      t.toBytes ≠ ascii "-") (by
    simp only [List.all_eq_true, Bool.and_eq_true, bne_iff_ne, beq_iff_eq, and_assoc]
    exact ⟨fun h => ⟨h.1, h.2.1, h.2.2.1, h.2.2.2.1, h.2.2.2.2⟩,
      fun h => ⟨h.ip, h.sender, h.sender_ne, h.recipient, h.recipient_ne⟩⟩)

instance Tuple.decidableClean (t : Tuple) : Decidable t.Clean :=
  decidable_of_iff (t.Separable ∧ t.toBytes.getLast?.all (fun c => !isspace c) = true) (by
    simp only [Option.all_eq_true, Bool.not_eq_true']
    exact ⟨fun h => ⟨h.1, h.2⟩, fun h => ⟨h.toSeparable, h.recipient_last⟩⟩)

/-- These are properties of the key. -/
theorem Tuple.Separable.of_key {t u : Tuple} (h : t.Separable) (hkey : t.key = u.key) :
    u.Separable := by
  obtain ⟨hip, hsender, hrecipient⟩ : t.ip.toList = u.ip.toList ∧ t.fromBytes = u.fromBytes ∧
      t.toBytes = u.toBytes := by
    simpa [Tuple.key] using hkey
  exact ⟨hip ▸ h.ip, hsender ▸ h.sender, hsender ▸ h.sender_ne, hrecipient ▸ h.recipient,
    hrecipient ▸ h.recipient_ne⟩

/-! ### The tuple of a line -/

theorem fromBytes_whiteTuple (ndebug : Bool) (now : ℤ) (ip sender recipient : List UInt8) :
    (whiteTuple ndebug now ip sender recipient).fromBytes = whiteField sender :=
  take_toList_buffer ((length_whiteField sender).trans (by decide))

theorem toBytes_whiteTuple (ndebug : Bool) (now : ℤ) (ip sender recipient : List UInt8) :
    (whiteTuple ndebug now ip sender recipient).toBytes = whiteField recipient :=
  take_toList_buffer ((length_whiteField recipient).trans (by decide))

/-- **A line that begins with an address** and a blank is cut at the next blank. -/
theorem WhiteLine.tuple_eq {cgi : CgiLib} {ndebug : Bool} {now : ℤ} {line : WhiteLine}
    {ip : Vector UInt8 16} {fields : List UInt8}
    (htrim : cgi.trimSpace line.text = ipv4 ip ++ 32 :: fields) (hzero : 0 ∉ fields) :
    line.tuple cgi ndebug now =
      match strchr fields 32 with
      | none => .ok none
      | some n => .ok (some (whiteTuple ndebug now (ipv4Bytes ip)
          (fields.takeWhile (· ≠ 32)) n.tail)) := by
  have hmem : cgi.trimSpace line.text ++ 0 :: line.rest =
      ipv4 ip ++ 32 :: (fields ++ 0 :: line.rest) := by
    rw [htrim, List.append_assoc, List.cons_append]
  rw [WhiteLine.tuple, hmem, ipv4, scanDotted_dotted _ _ _ _ (by decide), ok_bind]
  dsimp only
  rw [cstring_append hzero, ok_bind]
  rfl

/-- An address begins and ends with a digit. -/
theorem ipv4_ends (ip : Vector UInt8 16) :
    ∃ c d, (ipv4 ip).head? = some c ∧ (ipv4 ip).getLast? = some d ∧
      isspace c = false ∧ isspace d = false := by
  have hne : ipv4 ip ≠ [] := by
    rw [ipv4, dotted]
    exact List.append_ne_nil_of_right_ne_nil _ (List.cons_ne_nil _ _)
  have hspace : ∀ c ∈ ipv4 ip, isspace c = false :=
    fun c hc => (isAddressChar_dotted hc).spec.1
  exact ⟨_, _, List.head?_eq_some_head hne, List.getLast?_eq_some_getLast hne,
    hspace _ (List.head_mem hne), hspace _ (List.getLast_mem hne)⟩

/-- What is written for a text without zero bytes. -/
theorem fieldText_eq {bytes : List UInt8} (h : ∀ c ∈ bytes, c ≠ 0) :
    fieldText bytes = if bytes = [] then ascii "-" else bytes := by
  rw [fieldText]
  split_ifs
  · rfl
  · exact List.takeWhile_eq_self_iff.mpr fun c hc => decide_eq_true (h c hc)

/-- A text that is no dash is read back. -/
theorem whiteField_fieldText {bytes : List UInt8} (h : ∀ c ∈ bytes, c ≠ 0)
    (hdash : bytes ≠ ascii "-") (hlen : bytes.length ≤ 107) :
    whiteField (fieldText bytes) = bytes := by
  rw [fieldText_eq h, whiteField]
  by_cases hnil : bytes = []
  · rw [if_pos hnil, if_pos ((strcmp_compares _ _).eq_eq.mpr rfl), hnil]
  · rw [if_neg hnil, if_neg (fun heq => hdash ((strcmp_compares _ _).eq_eq.mp heq)),
      List.take_of_length_le hlen]

namespace Tuple.Separable

variable {t : Tuple}

theorem fieldText_sender (h : t.Separable) :
    ∀ c ∈ fieldText t.fromBytes, c ≠ 0 ∧ c ≠ 10 ∧ c ≠ 32 := by
  rw [fieldText_eq fun c hc => (h.sender c hc).1]
  split_ifs
  · intro c hc
    rw [List.mem_singleton.mp hc]
    decide
  · exact h.sender

theorem fieldText_recipient (h : t.Separable) :
    ∀ c ∈ fieldText t.toBytes, c ≠ 0 ∧ c ≠ 10 := by
  rw [fieldText_eq fun c hc => (h.recipient c hc).1]
  split_ifs
  · intro c hc
    rw [List.mem_singleton.mp hc]
    decide
  · exact h.recipient

/-- What is written of it behind the address has no zero byte and no newline. -/
theorem fields (h : t.Separable) :
    ∀ c ∈ fieldText t.fromBytes ++ 32 :: fieldText t.toBytes, c ≠ 0 ∧ c ≠ 10 := by
  intro c hc
  rw [List.mem_append, List.mem_cons] at hc
  rcases hc with hc | rfl | hc
  · exact ⟨(h.fieldText_sender c hc).1, (h.fieldText_sender c hc).2.1⟩
  · decide
  · exact h.fieldText_recipient c hc

/-- Its line has no newline inside. -/
theorem newline_notMem (h : t.Separable) : 10 ∉ t.dumpLine := by
  rw [Tuple.dumpLine, List.mem_append, List.mem_cons, not_or, not_or]
  refine ⟨fun hmem => ?_, by decide, fun hmem => (h.fields 10 hmem).2 rfl⟩
  have hspace := (isAddressChar_dotted hmem).spec.1
  cases hspace

/-- The address is read back. -/
theorem toList_buffer_ip (h : t.Separable) : (buffer 16 (ipv4Bytes t.ip)).toList = t.ip.toList := by
  have htail : t.ip.toList.drop 4 = List.replicate 12 0 :=
    List.eq_replicate_iff.mpr ⟨by simp, h.ip⟩
  have hhead : t.ip.toList.take 4 = ipv4Bytes t.ip := by
    refine List.ext_getElem (by simp [ipv4Bytes]) fun i hi _ => ?_
    have hlt : i < 4 := by simpa using hi
    have hcases : i = 0 ∨ i = 1 ∨ i = 2 ∨ i = 3 := by omega
    rcases hcases with rfl | rfl | rfl | rfl <;> simp [ipv4Bytes]
  rw [toList_buffer, ← hhead, List.take_take]
  conv_rhs => rw [← List.take_append_drop 4 t.ip.toList, htail]
  simp

end Tuple.Separable

/-- What is written for the recipient of a clean tuple does not end with white space. -/
theorem Tuple.Clean.getLast?_recipient {t : Tuple} (h : t.Clean) :
    ∃ last, (fieldText t.toBytes).getLast? = some last ∧ isspace last = false := by
  rw [fieldText_eq fun c hc => (h.recipient c hc).1]
  by_cases hnil : t.toBytes = []
  · rw [if_pos hnil]
    exact ⟨45, rfl, rfl⟩
  · rw [if_neg hnil]
    have hlast := List.getLast?_eq_some_getLast hnil
    exact ⟨_, hlast, h.recipient_last _ hlast⟩

/-- **The line of a clean tuple** is read as a tuple with its key. -/
theorem Tuple.Clean.tuple_dumpLine {cgi : CgiLib} (hcgi : cgi.Behaves) {t : Tuple}
    (h : t.Clean) (ndebug : Bool) (now : ℤ) {line : WhiteLine}
    (hline : line.text = t.dumpLine ++ [10]) :
    cgi.emptyString line.text = false ∧
      ∃ u, line.tuple cgi ndebug now = .ok (some u) ∧ u.key = t.key := by
  obtain ⟨c, d, hhead, -, hc, -⟩ := ipv4_ends t.ip
  obtain ⟨last, hlast, hspace⟩ := h.getLast?_recipient
  have hzero : 0 ∉ fieldText t.fromBytes ++ 32 :: fieldText t.toBytes :=
    fun hmem => (h.fields 0 hmem).1 rfl
  have hblank : 32 ∉ fieldText t.fromBytes := fun hmem => (h.fieldText_sender 32 hmem).2.2 rfl
  have hfirst : t.dumpLine.head? = some c := by
    rw [Tuple.dumpLine, List.head?_append, hhead]
    rfl
  have hend : t.dumpLine.getLast? = some last := by
    rw [Tuple.dumpLine, List.getLast?_append, List.getLast?_cons, List.getLast?_append,
      List.getLast?_cons, hlast]
    rfl
  have htrim : cgi.trimSpace line.text =
      ipv4 t.ip ++ 32 :: (fieldText t.fromBytes ++ 32 :: fieldText t.toBytes) := by
    rw [hline, ← List.nil_append t.dumpLine,
      hcgi.trimSpace_line (by simp) hc hspace hfirst hend]
    rfl
  constructor
  · have hmem : c ∈ line.text := by
      rw [hline]
      exact List.mem_append_left _ (List.mem_of_mem_head? hfirst)
    exact hcgi.emptyString_eq_false hmem hc
  · refine ⟨whiteTuple ndebug now (ipv4Bytes t.ip) (fieldText t.fromBytes)
      (fieldText t.toBytes), ?_, ?_⟩
    · rw [WhiteLine.tuple_eq htrim hzero, strchr_append hblank, takeWhile_append_cons hblank]
      rfl
    · rw [Tuple.key, Tuple.key, fromBytes_whiteTuple, toBytes_whiteTuple,
        whiteField_fieldText (fun c hc => (h.sender c hc).1) h.sender_ne
          (t.length_fromBytes.trans_le t.fromsize_le),
        whiteField_fieldText (fun c hc => (h.recipient c hc).1) h.recipient_ne
          (t.length_toBytes.trans_le t.tosize_le)]
      exact congrArg (fun ip => toLex (ip, toLex (t.fromBytes, t.toBytes))) h.toList_buffer_ip

/-! ### Loading what was written -/

/-- **A line with a tuple for which there is room** adds its key, in a store of whitelisted
tuples. -/
theorem whitelistLoadLine_room {cgi : CgiLib} {cfg : Config} {s : TupleSpace} {top : ℕ}
    (h : StoreOk cfg s top) (hwhite : ∀ t ∈ s.liveTuples, t.whitelisted = true) {now : ℤ}
    {line : WhiteLine} {t : Tuple} (hempty : cgi.emptyString line.text = false)
    (htuple : line.tuple cgi cfg.ndebug now = .ok (some t))
    (hroom : t.key ∉ s.keys → s.poolnum < cfg.poolmax) :
    ∃ s' top', whitelistLoadLine cgi cfg now s line = .ok s' ∧ StoreOk cfg s' top' ∧
      (∀ u ∈ s'.liveTuples, u.whitelisted = true) ∧
      ∀ k, k ∈ s'.keys ↔ k ∈ s.keys ∨ k = t.key := by
  rw [whitelistLoadLine, hempty, if_neg Bool.false_ne_true, htuple, ok_bind]
  dsimp only
  rcases tupleSearch_spec h.length_live h.sorted t with
    ⟨p, hp, idx, hkey, hsearch⟩ | ⟨idx, hsplit, hsearch⟩
  · have hlen : p < s.pool.length := h.lt_of_mem_live hp
    have hderef : (s.countRead.write p ((s.deref p).touch now)).deref p =
        (s.deref p).touch now := TupleSpace.deref_write_self _ hlen
    have hold : ((s.deref p).touch now).whitelisted = true :=
      Lasting.deref hwhite hp
    have hkeys : (s.countRead.write p ((s.deref p).touch now)).keys = s.keys :=
      TupleSpace.keys_write rfl
    rw [whitelistLoadTuple_hit hsearch, confirm, hderef, if_pos hold]
    refine ⟨_, top, rfl, h.countRead.write hp rfl,
      Lasting.write (s := s.countRead) hwhite hold, fun k => ?_⟩
    rw [hkeys, or_iff_left_of_imp]
    rintro rfl
    exact mem_keys.mpr ⟨p, hp, hkey⟩
  · have hlt := hroom hsplit.notMem
    obtain ⟨live, free, hl⟩ := h.countRead.layout
    have halloc := tupleAllocate_of_lt (s := s.countRead) hlt line.clock
    have hidx : idx ≤ s.poolnum := h.length_keys ▸ hsplit.le_length
    have hfresh := WhiteLine.tuple_fresh htuple
    rw [whitelistLoadTuple_miss hsearch halloc hl hlt hfresh.pad hidx]
    refine ⟨_, _, rfl, (h.countRead.insertedStore hlt (t := t.setFlag fWhitelist)
      hsplit).congr rfl rfl rfl, ?_, fun k => ?_⟩
    · exact Lasting.insertedStore ⟨live, free, top, hl⟩ hlt hwhite
        (t.whitelisted_setFlag_whitelist) idx
    · change k ∈ (insertedStore s.countRead (t.setFlag fWhitelist) idx).keys ↔ _
      rw [keys_insertedStore hl hlt, ArrayShift.mem_insertAt, or_comm]
      rfl

/-- The lines of clean tuples add their keys, if there is room for all of them. -/
theorem foldlM_room {cgi : CgiLib} (hcgi : cgi.Behaves) {cfg : Config} {now : ℤ}
    {keys : List Key} (hroom : keys.length ≤ cfg.poolmax) {tuples : List Tuple}
    (htuples : ∀ t ∈ tuples, t.Clean ∧ t.key ∈ keys) {lines : List WhiteLine}
    (hlines : lines.map WhiteLine.text = tuples.map fun t => t.dumpLine ++ [10])
    {s : TupleSpace} {top : ℕ} (h : StoreOk cfg s top)
    (hwhite : ∀ t ∈ s.liveTuples, t.whitelisted = true) (hkeys : ∀ k ∈ s.keys, k ∈ keys) :
    ∃ s' top', lines.foldlM (whitelistLoadLine cgi cfg now) s = .ok s' ∧
      StoreOk cfg s' top' ∧ (∀ t ∈ s'.liveTuples, t.whitelisted = true) ∧
      ∀ k, k ∈ s'.keys ↔ k ∈ s.keys ∨ ∃ t ∈ tuples, t.key = k := by
  induction tuples generalizing lines s top with
  | nil =>
      rw [List.map_nil, List.map_eq_nil_iff] at hlines
      subst hlines
      exact ⟨s, top, rfl, h, hwhite, fun k => by simp⟩
  | cons t tuples ih =>
      obtain ⟨⟨hclean, hkey⟩, hrest⟩ := List.forall_mem_cons.mp htuples
      rw [List.map_cons, List.map_eq_cons_iff] at hlines
      obtain ⟨line, lines, rfl, hline, hlines⟩ := hlines
      obtain ⟨hempty, u, hu, hukey⟩ := hclean.tuple_dumpLine hcgi cfg.ndebug now hline
      have hfree : u.key ∉ s.keys → s.poolnum < cfg.poolmax := by
        intro hnew
        have hnodup : (u.key :: s.keys).Nodup := List.nodup_cons.mpr ⟨hnew, h.nodup⟩
        have hsub : u.key :: s.keys ⊆ keys :=
          List.cons_subset.mpr ⟨hukey ▸ hkey, hkeys⟩
        have hle := (List.subperm_of_subset hnodup hsub).length_le
        rw [List.length_cons, h.length_keys] at hle
        omega
      obtain ⟨s₁, top₁, hload, h₁, hwhite₁, hkeys₁⟩ :=
        whitelistLoadLine_room h hwhite hempty hu hfree
      have hsub₁ : ∀ k ∈ s₁.keys, k ∈ keys := by
        intro k hk
        rcases (hkeys₁ k).mp hk with hk | rfl
        · exact hkeys k hk
        · exact hukey ▸ hkey
      obtain ⟨s', top', hloads, h', hwhite', hkeys'⟩ := ih hrest hlines h₁ hwhite₁ hsub₁
      refine ⟨s', top', ?_, h', hwhite', fun k => ?_⟩
      · rw [List.foldlM_cons, hload, ok_bind, hloads]
      · rw [hkeys', hkeys₁, hukey, List.exists_mem_cons_iff, or_assoc, eq_comm (a := k)]

/-! ### What a line can say -/

/-- What is left behind a number was there before. -/
theorem subset_of_strtoul {mem rest : List UInt8} {n : ℕ} (h : strtoul mem = .ok (n, rest)) :
    rest ⊆ mem := by
  have hbody : ∀ body : List UInt8, body.Sublist mem → body.dropWhile isdigit ⊆ mem :=
    fun body hbody => ((List.dropWhile_sublist _).trans hbody).subset
  have hspace := List.dropWhile_sublist (l := mem) isspace
  have htail := (List.tail_sublist (mem.dropWhile isspace)).trans hspace
  rw [strtoul] at h
  dsimp only at h
  split_ifs at h <;> cases h
  all_goals first
    | exact List.Subset.refl _
    | exact hbody _ htail
    | exact hbody _ hspace

/-- What is left behind some octets was there before. -/
theorem subset_of_scanOctets {n : ℕ} {mem ip rest : List UInt8}
    (h : scanOctets n mem = .ok (ip, rest)) : rest ⊆ mem := by
  induction n generalizing mem ip with
  | zero =>
      cases h
      exact List.Subset.refl _
  | succ n ih =>
      obtain ⟨⟨a, mem₁⟩, hoctet, h⟩ := bind_eq_ok.mp h
      obtain ⟨⟨octets, mem₂⟩, hoctets, h⟩ := bind_eq_ok.mp h
      cases h
      obtain ⟨⟨k, text⟩, hnumber, hoctet⟩ := bind_eq_ok.mp hoctet
      cases hoctet
      have htext := List.Subset.trans (List.drop_subset 1 text) (subset_of_strtoul hnumber)
      exact List.Subset.trans (ih hoctets) htext

/-- What is left behind an address was there before. -/
theorem subset_of_scanDotted {mem ip rest : List UInt8} (h : scanDotted mem = .ok (ip, rest)) :
    ip.length = 4 ∧ rest ⊆ mem :=
  ⟨length_of_scanDotted h, subset_of_scanOctets ((scanDotted_eq_scanOctets mem).symm.trans h)⟩

/-- A field is not read as a dash. -/
theorem whiteField_ne_dash (field : List UInt8) : whiteField field ≠ ascii "-" := by
  rw [whiteField]
  split_ifs with hdash
  · decide
  · intro htake
    have hlen := congrArg List.length htake
    rw [List.length_take] at hlen
    have hone : min 107 field.length = 1 := hlen
    rw [List.take_of_length_le (by omega)] at htake
    exact hdash ((strcmp_compares _ _).eq_eq.mpr htake)

theorem whiteField_subset (field : List UInt8) : whiteField field ⊆ field := by
  rw [whiteField]
  split_ifs
  · exact List.nil_subset _
  · exact List.take_subset 107 field

/-- **The tuple of a line** without newlines, if there is nothing behind the line, has parts
that can be told apart. -/
theorem WhiteLine.tuple_separable {cgi : CgiLib} {ndebug : Bool} {now : ℤ} {text : List UInt8}
    {t : Tuple} {clock : ℤ} (hnewline : 10 ∉ cgi.trimSpace text)
    (htuple : WhiteLine.tuple cgi ndebug now ⟨text, [], clock⟩ = .ok (some t)) :
    t.Separable := by
  obtain ⟨ip, p, fields, n, hscan, hfields, hfound, rfl⟩ := WhiteLine.tuple_ok htuple
  obtain ⟨hip, hp⟩ := subset_of_scanDotted hscan
  rw [cstring] at hfields
  split_ifs at hfields
  cases hfields
  have hchars : ∀ c ∈ p.takeWhile (· ≠ 0), c ≠ 0 ∧ c ≠ 10 := by
    intro c hc
    have hzero := ne_of_mem_takeWhile hc
    have hmem := hp (List.takeWhile_subset _ hc)
    rw [List.mem_append, List.mem_singleton] at hmem
    refine ⟨hzero, ?_⟩
    rintro rfl
    exact hnewline (hmem.resolve_right hzero)
  have hparts := strchr_eq_some hfound
  generalize p.takeWhile (· ≠ 0) = fields at hchars hparts
  have htail : n.tail ⊆ fields := by
    rw [hparts]
    exact fun c hc => List.mem_append_right _ (List.mem_cons_of_mem _ hc)
  refine ⟨?_, ?_, ?_, ?_, ?_⟩
  · intro c hc
    have hdrop : (buffer 16 ip).toList.drop 4 = List.replicate 12 0 := by
      rw [toList_buffer, List.take_of_length_le (by omega), ← hip, List.drop_left, hip]
    exact List.eq_of_mem_replicate (hdrop ▸ hc)
  · intro c hc
    rw [fromBytes_whiteTuple] at hc
    have hc := whiteField_subset _ hc
    obtain ⟨hzero, hline⟩ := hchars c (List.takeWhile_subset _ hc)
    exact ⟨hzero, hline, ne_of_mem_takeWhile hc⟩
  · rw [fromBytes_whiteTuple]
    exact whiteField_ne_dash _
  · intro c hc
    rw [toBytes_whiteTuple] at hc
    exact hchars c (htail (whiteField_subset _ hc))
  · rw [toBytes_whiteTuple]
    exact whiteField_ne_dash _

theorem length_fieldText_le {bytes : List UInt8} (h : bytes.length ≤ 107) :
    (fieldText bytes).length ≤ 107 := by
  rw [fieldText]
  split_ifs
  · decide
  · exact (List.takeWhile_sublist _).length_le.trans h

/-- **The recipient that is read** from the line of a tuple whose parts can be told apart is
not cut off, so that it ends where the trimmed line does. -/
theorem Tuple.Separable.getLast?_recipient {cgi : CgiLib} (hcgi : cgi.Behaves) {t u : Tuple}
    (h : t.Separable) {ndebug : Bool} {now clock : ℤ}
    (htuple : WhiteLine.tuple cgi ndebug now ⟨t.dumpLine ++ [10], [], clock⟩ = .ok (some u))
    {c : UInt8} (hc : u.toBytes.getLast? = some c) : isspace c = false := by
  obtain ⟨first, last, hfirst, hlast, hfspace, hlspace⟩ := ipv4_ends t.ip
  have hnewline : ∀ c ∈ [(10 : UInt8)], isspace c = true := List.forall_mem_singleton.mpr rfl
  have htrim : cgi.trimSpace (t.dumpLine ++ [10]) = ipv4 t.ip ++
      (32 :: (fieldText t.fromBytes ++ 32 :: fieldText t.toBytes)).rdropWhile isspace := by
    rw [hcgi.trimSpace_eq, trimmed_append hnewline, Tuple.dumpLine,
      trimmed_append_of_last hfspace hlspace hfirst hlast]
  obtain ⟨cut, hcut⟩ := List.rdropWhile_prefix isspace
    (32 :: (fieldText t.fromBytes ++ 32 :: fieldText t.toBytes))
  generalize (32 :: (fieldText t.fromBytes ++ 32 :: fieldText t.toBytes)).rdropWhile isspace =
    rest at htrim hcut
  cases rest with
  | nil =>
      -- The line ends with the address, and the scan skips its terminator.
      have hmem : cgi.trimSpace (t.dumpLine ++ [10]) ++ [0] = ipv4 t.ip ++ 0 :: [] := by
        rw [htrim, List.append_nil]
      rw [WhiteLine.tuple] at htuple
      dsimp only at htuple
      rw [hmem, ipv4, scanDotted_dotted _ _ _ _ (by decide), ok_bind] at htuple
      cases htuple
  | cons e fields =>
      rw [List.cons_append, List.cons.injEq] at hcut
      obtain ⟨rfl, hcut⟩ := hcut
      have hzero : 0 ∉ fields := fun hmem =>
        (h.fields 0 (hcut ▸ List.mem_append_left cut hmem)).1 rfl
      rw [WhiteLine.tuple_eq htrim hzero] at htuple
      cases hfound : strchr fields 32 with
      | none =>
          rw [hfound] at htuple
          cases htuple
      | some n =>
          rw [hfound] at htuple
          cases htuple
          have hparts := strchr_eq_some hfound
          have hfront : 32 ∉ fields.takeWhile (· ≠ 32) :=
            fun hmem => ne_of_mem_takeWhile hmem rfl
          have hblank : 32 ∉ fieldText t.fromBytes :=
            fun hmem => (h.fieldText_sender 32 hmem).2.2 rfl
          rw [hparts, List.append_assoc, List.cons_append] at hcut
          obtain ⟨-, hback⟩ := eq_of_append_cons_eq hcut hfront hblank
          have hlen : n.tail.length ≤ 107 := by
            have hall := length_fieldText_le (t.length_toBytes.trans_le t.tosize_le)
            rw [← hback, List.length_append] at hall
            omega
          rw [toBytes_whiteTuple, whiteField] at hc
          split_ifs at hc
          · cases hc
          · rw [List.take_of_length_le hlen] at hc
            have hend : (trimmed (t.dumpLine ++ [10])).getLast? = some c := by
              rw [← hcgi.trimSpace_eq, htrim, hparts, List.getLast?_append, List.getLast?_cons,
                List.getLast?_append, List.getLast?_cons, hc]
              rfl
            exact isspace_getLast?_trimmed hend

/-! ### The whitelist and the file -/

/-- The store has the tuples of another one that are whitelisted and not marked for removal,
each of them once, in order, and whitelisted. -/
structure Restored (s s' : TupleSpace) : Prop where
  mem_keys : ∀ k, k ∈ s'.keys ↔
    ∃ t ∈ s.liveTuples, t.whitelisted = true ∧ t.removed = false ∧ t.key = k
  nodup : s'.keys.Nodup
  increasing : Increasing s'
  whitelisted : ∀ t ∈ s'.liveTuples, t.whitelisted = true

/-- A server that has just started restores the whitelist of a store from a file, whenever
it reads it, and whatever the memory behind the lines holds. -/
def Restores (cgi : CgiLib) (cfg : Config) (s : TupleSpace) (file : List UInt8) : Prop :=
  ∀ (now : ℤ) (lines : List WhiteLine), lines.map WhiteLine.text = getlines 10 file →
    ∃ s', whitelistLoad cgi cfg now (TupleSpace.init cfg) lines = .ok s' ∧ Restored s s'

theorem mem_dumpedTuples {s : TupleSpace} {t : Tuple} :
    t ∈ s.dumpedTuples ↔ t ∈ s.liveTuples ∧ t.whitelisted = true ∧ t.removed = false := by
  rw [TupleSpace.dumpedTuples, List.mem_filter, Tuple.dumped_iff]

section Reload

variable {cgi : CgiLib} {cfg : Config} {s : TupleSpace}

/-- The lines of tuples whose parts can be told apart. -/
theorem getlines_dump (h : ∀ t ∈ s.dumpedTuples, t.Separable) :
    getlines 10 (s.dumpedTuples.flatMap fun t => t.dumpLine ++ [10]) =
      s.dumpedTuples.map fun t => t.dumpLine ++ [10] := by
  have hlines := getlines_flatMap (fun t ht => (h t ht).newline_notMem) []
  rwa [List.append_nil, getlines, List.append_nil] at hlines

/-- **Clean tuples are restored**, if the pool has room for all of the store. -/
theorem restores_of_clean (hcgi : cgi.Behaves) (hroom : s.liveTuples.length ≤ cfg.poolmax)
    (hclean : ∀ t ∈ s.dumpedTuples, t.Clean) :
    Restores cgi cfg s (s.dumpedTuples.flatMap fun t => t.dumpLine ++ [10]) := by
  intro now lines hlines
  rw [getlines_dump fun t ht => (hclean t ht).toSeparable] at hlines
  have hkeys : (s.dumpedTuples.map Tuple.key).length ≤ cfg.poolmax := by
    rw [List.length_map]
    exact (List.length_filter_le _ _).trans hroom
  have htuples : ∀ t ∈ s.dumpedTuples, t.Clean ∧ t.key ∈ s.dumpedTuples.map Tuple.key :=
    fun t ht => ⟨hclean t ht, List.mem_map_of_mem ht⟩
  obtain ⟨s', top, hload, hok, hwhite, hmem⟩ :=
    @foldlM_room cgi hcgi cfg now _ hkeys _ htuples _ hlines _ _ (storeOk_init cfg)
      (fun t ht => absurd ht List.not_mem_nil) (fun k hk => absurd hk List.not_mem_nil)
  have hloaded : StoreOk cfg (whitelistLoaded s') top := hok.congr rfl rfl rfl
  refine ⟨whitelistLoaded s', ?_, ?_, hloaded.nodup, hloaded.increasing, hwhite⟩
  · rw [whitelistLoad, hload, ok_bind]
  · intro k
    have hinit : k ∉ (TupleSpace.init cfg).keys := List.not_mem_nil
    rw [show k ∈ (whitelistLoaded s').keys ↔ k ∈ s'.keys from Iff.rfl, hmem,
      or_iff_right hinit]
    constructor
    · rintro ⟨t, ht, hkey⟩
      obtain ⟨hlive, hwhite, hkept⟩ := mem_dumpedTuples.mp ht
      exact ⟨t, hlive, hwhite, hkept, hkey⟩
    · rintro ⟨t, hlive, hwhite, hkept, hkey⟩
      exact ⟨t, mem_dumpedTuples.mpr ⟨hlive, hwhite, hkept⟩, hkey⟩

/-- A key that is restored was read from a line, also where there is nothing behind the
lines. -/
theorem Restores.exists_line {file : List UInt8} (h : Restores cgi cfg s file) {t : Tuple}
    (ht : t ∈ s.dumpedTuples) :
    ∃ text ∈ getlines 10 file, ∃ u,
      WhiteLine.tuple cgi cfg.ndebug 0 ⟨text, [], 0⟩ = .ok (some u) ∧ u.key = t.key := by
  obtain ⟨lines, hlines⟩ : ∃ lines : List WhiteLine,
      lines = (getlines 10 file).map fun text => ⟨text, [], 0⟩ := ⟨_, rfl⟩
  have htexts : lines.map WhiteLine.text = getlines 10 file := by
    rw [hlines, List.map_map]
    exact List.map_id _
  obtain ⟨s', hload, hrestored⟩ := h 0 lines htexts
  obtain ⟨s₁, hfold, hload⟩ := bind_eq_ok.mp hload
  cases hload
  obtain ⟨hlive, hwhite, hkept⟩ := mem_dumpedTuples.mp ht
  have hkey : t.key ∈ s₁.keys := (hrestored.mem_keys t.key).mpr ⟨t, hlive, hwhite, hkept, rfl⟩
  obtain ⟨v, hv, hvkey⟩ := List.mem_map.mp hkey
  have hlast : Lasting fun v => ∃ line ∈ lines, ∃ u,
      line.tuple cgi cfg.ndebug 0 = .ok (some u) ∧ u.key = v.key :=
    ⟨fun _ _ _ hv => hv, fun _ _ hv => hv⟩
  obtain ⟨line, hmem, u, hu, hukey⟩ := hlast.foldlM
    (fun line hline u hu => ⟨line, hline, u, hu, rfl⟩) (hasLayout_init cfg)
    (fun t ht => absurd ht List.not_mem_nil) hfold v hv
  rw [hlines] at hmem
  obtain ⟨text, htext, rfl⟩ := List.mem_map.mp hmem
  exact ⟨text, htext, u, hu, hukey.trans hvkey⟩

/-- **Only clean tuples are restored.** -/
theorem clean_of_restores (hcgi : cgi.Behaves)
    (h : Restores cgi cfg s (s.dumpedTuples.flatMap fun t => t.dumpLine ++ [10])) :
    ∀ t ∈ s.dumpedTuples, t.Clean := by
  have hseparable : ∀ t ∈ s.dumpedTuples, t.Separable := by
    intro t ht
    obtain ⟨text, htext, u, hu, hkey⟩ := h.exists_line ht
    have hnewline : 10 ∉ cgi.trimSpace text := by
      obtain ⟨body, hbody, htext⟩ := exists_of_mem_getlines htext
      have hspace : ∀ c ∈ [(10 : UInt8)], isspace c = true := List.forall_mem_singleton.mpr rfl
      rw [hcgi.trimSpace_eq]
      rcases htext with rfl | rfl
      · exact fun hmem => hbody (mem_of_mem_trimmed hmem)
      · rw [trimmed_append hspace]
        exact fun hmem => hbody (mem_of_mem_trimmed hmem)
    exact (WhiteLine.tuple_separable hnewline hu).of_key hkey
  intro t ht
  refine ⟨hseparable t ht, fun c hc => ?_⟩
  obtain ⟨text, htext, u, hu, hkey⟩ := h.exists_line ht
  rw [getlines_dump hseparable] at htext
  obtain ⟨v, hv, rfl⟩ := List.mem_map.mp htext
  have hrecipient : u.toBytes = t.toBytes := by
    have hparts := hkey
    simp only [Tuple.key, EmbeddingLike.apply_eq_iff_eq, Prod.mk.injEq] at hparts
    exact hparts.2.2
  exact (hseparable v hv).getLast?_recipient hcgi hu (hrecipient ▸ hc)

end Reload

/-! ### Runs -/

/-- The texts of the tuple of a request end inside their buffers. -/
theorem Request.Accepts.padded {req : Request} (h : req.Accepts) (cfg : Config) :
    (req.tuple cfg).Padded := by
  obtain ⟨-, hfit⟩ := h
  have hsize := req.size_le
  have hsender : (req.tuple cfg).fromBytes =
      req.bytes (16 + req.ipsize) (min 107 req.fromsize) :=
    take_buffer (length_bytes (by omega)) ((req.tuple cfg).fromsize_le.trans (by decide))
  have hrecipient : (req.tuple cfg).toBytes =
      req.bytes (16 + req.ipsize + req.fromsize) (min 107 req.tosize) :=
    take_buffer (length_bytes (by omega)) ((req.tuple cfg).tosize_le.trans (by decide))
  constructor
  · rw [hsender]
    rfl
  · rw [hrecipient]
    rfl

/-- The texts of the tuple of a line end inside their buffers. -/
theorem WhiteLine.tuple_padded {cgi : CgiLib} {ndebug : Bool} {now : ℤ} {line : WhiteLine}
    {t : Tuple} (h : line.tuple cgi ndebug now = .ok (some t)) : t.Padded := by
  obtain ⟨ip, sender, recipient, rfl⟩ := WhiteLine.tuple_inv h
  constructor
  · rw [fromBytes_whiteTuple]
    rfl
  · rw [toBytes_whiteTuple]
    rfl

/-- Every tuple that the server makes has texts that end inside their buffers. -/
theorem makes_padded {cgi : CgiLib} {cfg : Config} (a : Action) : a.Makes cgi cfg Tuple.Padded := by
  cases a with
  | whitelistLoad now lines => exact fun line _ t ht => WhiteLine.tuple_padded ht
  | request req canReport type => exact fun hacc => hacc.padded cfg
  | iplistRead ip lines => trivial
  | tofromRead name lines => trivial
  | sigalrm now => trivial
  | sigusr2 now => trivial

/-- **When the whitelist is restored.** In every state that the server reaches from startup
on, the whitelist can be written, and a server with a pool of the same size restores it from
the file exactly when all tuples that are written are clean. -/
theorem run_whitelist_reload {cgi : CgiLib} (hcgi : cgi.Behaves) (cfg cfg' : Config)
    (hpoolmax : cfg'.poolmax = cfg.poolmax) (starttime : ℤ) (actions : List Action)
    (srv : Server) (outs : List (List Output))
    (hrun : run (actionStep cgi cfg) (Server.init cfg starttime) actions = .ok (srv, outs)) :
    ∃ file, whitelistDumpStream srv.store = .ok file ∧
      (Restores cgi cfg' srv.store file ↔ ∀ t ∈ srv.store.liveTuples,
        t.whitelisted = true → t.removed = false → t.Clean) := by
  have hpadded := run_liveTuples lasting_padded (fun a _ => makes_padded a) hrun
  obtain ⟨live, free, top, hl⟩ := run_hasLayout hrun
  have hroom : srv.store.liveTuples.length ≤ cfg'.poolmax := by
    rw [hl.length_liveTuples, hpoolmax]
    exact hl.poolnum_le
  refine ⟨_, whitelistDumpStream_eq hpadded, ?_, ?_⟩
  · intro h t ht hwhite hkept
    exact clean_of_restores hcgi h t (mem_dumpedTuples.mpr ⟨ht, hwhite, hkept⟩)
  · intro h
    refine restores_of_clean hcgi hroom fun t ht => ?_
    obtain ⟨hlive, hwhite, hkept⟩ := mem_dumpedTuples.mp ht
    exact h t hlive hwhite hkept

/-- A tuple of two letters. -/
theorem run_whitelist_reload_letters :
    ∃ srv outs, run (actionStep stdCgi smallConfig) (Server.init smallConfig 0)
        [.request (letterRequest 97 98 0) false (some .whitelist)] = .ok (srv, outs) ∧
      ∃ file, whitelistDumpStream srv.store = .ok file ∧
        Restores stdCgi smallConfig srv.store file := by
  obtain ⟨⟨srv, outs⟩, hrun, htest⟩ := exists_of_okAnd
    (run (actionStep stdCgi smallConfig) (Server.init smallConfig 0)
      [.request (letterRequest 97 98 0) false (some .whitelist)])
    (fun r => decide (∀ t ∈ r.1.store.liveTuples,
      t.whitelisted = true → t.removed = false → t.Clean)) (by decide +kernel)
  obtain ⟨file, hfile, hiff⟩ := run_whitelist_reload stdCgi_behaves smallConfig smallConfig rfl
    0 _ srv outs hrun
  exact ⟨srv, outs, hrun, file, hfile, hiff.mpr (of_decide_eq_true htest)⟩

/-- A sender that is a blank is not restored: the loader takes the blank for the end of an
empty sender. -/
theorem run_whitelist_reload_blank :
    ∃ srv outs file s', run (actionStep stdCgi smallConfig) (Server.init smallConfig 0)
        [.request (letterRequest 32 98 0) false (some .whitelist)] = .ok (srv, outs) ∧
      whitelistDumpStream srv.store = .ok file ∧
      whitelistLoad stdCgi smallConfig 0 (TupleSpace.init smallConfig)
        ((getlines 10 file).map fun text => ⟨text, [], 0⟩) = .ok s' ∧
      ∃ t ∈ srv.store.liveTuples, t.whitelisted = true ∧ t.removed = false ∧
        t.key ∉ s'.keys := by
  obtain ⟨⟨⟨srv, outs⟩, file, s'⟩, hok, htest⟩ := exists_of_okAnd
    (do
      let r ← run (actionStep stdCgi smallConfig) (Server.init smallConfig 0)
        [.request (letterRequest 32 98 0) false (some .whitelist)]
      let file ← whitelistDumpStream r.1.store
      let s' ← whitelistLoad stdCgi smallConfig 0 (TupleSpace.init smallConfig)
        ((getlines 10 file).map fun text => ⟨text, [], 0⟩)
      .ok (r, file, s'))
    (fun r => decide (∃ t ∈ r.1.1.store.liveTuples, t.whitelisted = true ∧
      t.removed = false ∧ t.key ∉ r.2.2.keys))
    (by decide +kernel)
  obtain ⟨r, hrun, hok⟩ := bind_eq_ok.mp hok
  obtain ⟨file', hfile, hok⟩ := bind_eq_ok.mp hok
  obtain ⟨s₁, hload, hok⟩ := bind_eq_ok.mp hok
  cases hok
  exact ⟨srv, outs, file, s', hrun, hfile, hload, of_decide_eq_true htest⟩

end XGrey
