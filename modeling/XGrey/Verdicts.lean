import XGrey.Lib.Guarantee
import XGrey.TypeGreylist
import XGrey.WhitelistLoad

/-!
# Verdicts

Every counter array of the server has room for three commands, so what keeps the daemon
inside them is that every rule and every default is a verdict (`Server.Guarded`). This
module shows what each operation of the server does to that: a lookup uses it and keeps
it, a change keeps it if the command that it brings is one that may be installed.

Nothing here depends on the order of an address list or on the depth of the tree of
client addresses, which a mask from the network can make deeper than an address.

## Main results

* `ipMatch_guarantees`, `consult_guarantees`: a lookup finds a verdict.
* `ipAddSm_guarantees`, `mcpTofromList_guarantees`, `iplistRead_guarantees`,
  `tofromReadStream_guarantees`: changes.
* `typeGreylist_guarantees`: a request is answered with a verdict.
-/

open CRuntime SortedSeq ArrayShift PrefixMap

namespace XGrey

/-- The faults that are not an index outside a counter array. -/
def InsideCounters (e : Fault) : Prop := e ≠ .subscript

/-- The commands that may be sent for a rule. -/
def Installs (cmd : ℤ) : Prop := IsVerdict cmd ∨ cmd = Ift.remove

instance (cmd : ℤ) : Decidable (Installs cmd) :=
  inferInstanceAs (Decidable (_ ∨ _))

/-- A fault of memory is not one of the counters. -/
theorem insideCounters_memory {e : Fault} (h : e = .memory) : InsideCounters e := by
  rintro rfl
  cases h

/-- An assertion that fails is not a fault of the counters. -/
theorem assert_guarantees (ndebug : Bool) (p : Prop) [Decidable p] :
    Guarantees (cassert ndebug p) (fun _ => ndebug = true ∨ p) InsideCounters :=
  guarantees_cassert (fun h => by cases h) ndebug p

theorem guarantees_of_memory {α : Type} {x : Exec α} (h : ∀ e, x = .error e → e = .memory) :
    Guarantees x (fun a => x = .ok a) InsideCounters :=
  guarantees_self fun e he => insideCounters_memory (h e he)

/-! ### The tree of client addresses -/

/-- Every rule of a tree is a verdict. -/
def IpVerdicts (t : BinTrie IpNode) : Prop := ∀ q v, ipRules t q = some v → IsVerdict v

/-- The rules of a node are its own and those of its two halves. -/
theorem ipVerdicts_node {n : IpNode} {zero one : BinTrie IpNode} :
    IpVerdicts (.node n zero one) ↔
      (∀ v, ruleOf n = some v → IsVerdict v) ∧ IpVerdicts zero ∧ IpVerdicts one := by
  constructor
  · intro h
    exact ⟨h [], fun q => h (false :: q), fun q => h (true :: q)⟩
  · rintro ⟨hn, hzero, hone⟩ q v hq
    rcases q with _ | ⟨_ | _, q⟩
    · exact hn v hq
    · exact hzero q v hq
    · exact hone q v hq

/-- A node that carries a rule carries a verdict. -/
theorem IpVerdicts.cmd {n : IpNode} {zero one : BinTrie IpNode}
    (h : IpVerdicts (.node n zero one)) (hn : n.cmd ≠ Ift.none) : IsVerdict n.cmd :=
  (ipVerdicts_node.mp h).1 n.cmd (if_neg hn)

theorem ipVerdicts_childOrNew {t : BinTrie IpNode} (h : IpVerdicts t) :
    IpVerdicts (childOrNew t) := by
  intro q v hq
  rw [ipRules_childOrNew] at hq
  exact h q v hq

/-- Reading an octet outside an address is a fault of memory. -/
theorem guarantees_peek (ip : List UInt8) (off : ℤ) :
    Guarantees (peek ip off) (fun octet => peek ip off = .ok octet) InsideCounters := by
  refine guarantees_of_memory fun e he => ?_
  rw [peek] at he
  split_ifs at he
  · cases hget : ip[off.toNat]? with
    | none =>
        rw [hget] at he
        cases he
        rfl
    | some octet =>
        rw [hget] at he
        cases he
  · cases he
    rfl

/-- The walk of `ip_match` comes upon verdicts only. -/
theorem ipMatchLoop_guarantees {ip : List UInt8} {t : BinTrie IpNode} (h : IpVerdicts t)
    (path : List Bool) {m : List Bool × IpNode} (hm : IsVerdict m.2.cmd) (off : ℤ) (bit : ℕ) :
    Guarantees (ipMatchLoop ip t path m off bit)
      (fun found => ∀ n, found = some n → IsVerdict n.2.cmd) InsideCounters := by
  induction t generalizing path m off bit with
  | nil => exact guarantees_ok (by simp)
  | node n zero one ihzero ihone =>
      obtain ⟨-, hzero, hone⟩ := ipVerdicts_node.mp h
      have hm' : IsVerdict (if n.cmd ≠ Ift.none then (path, n) else m).2.cmd := by
        split_ifs with hn
        · exact h.cmd hn
        · exact hm
      rw [ipMatchLoop]
      generalize (if n.cmd ≠ Ift.none then (path, n) else m) = m' at hm' ⊢
      generalize roll off bit = place
      refine (guarantees_peek ip _).bind fun octet _ => ?_
      split_ifs
      · exact ihzero hzero _ hm' _ _
      · exact ihone hone _ hm' _ _
      · refine guarantees_ok ?_
        rintro found hfound
        cases hfound
        exact hm'

/-- What a tree needs to answer every lookup with a verdict: its root has one, and every
other rule is one. -/
structure IpGuarded (t : BinTrie IpNode) : Prop where
  verdicts : IpVerdicts t
  root : ipRules t [] ≠ none

/-- **`ip_match` finds a verdict**, and counting it leaves the rules as they were. -/
theorem ipMatch_guarantees (ndebug : Bool) {t : BinTrie IpNode} (h : IpGuarded t)
    (ip : List UInt8) :
    Guarantees (ipMatch ndebug t ip) (fun r => IsVerdict r.1 ∧ IpGuarded r.2)
      InsideCounters := by
  obtain ⟨hv, hroot⟩ := h
  cases t with
  | nil => exact guarantees_error (insideCounters_memory rfl)
  | node root zero one =>
      have hcmd : IsVerdict root.cmd := by
        refine hv.cmd fun hnone => hroot ?_
        rw [ipRules_node_nil, ruleOf, if_pos hnone]
      rw [ipMatch]
      refine (ipMatchLoop_guarantees hv [] hcmd (-1) 0).bind fun found hfound => ?_
      rcases found with _ | ⟨path, n⟩
      · exact guarantees_ok ⟨hcmd, hv, hroot⟩
      · refine (assert_guarantees ndebug _).bind fun _ _ => ?_
        refine guarantees_ok ⟨hfound _ rfl, ?_, ?_⟩
        · intro q v hq
          rw [ipRules_modify_countHit] at hq
          exact hv q v hq
        · rw [ipRules_modify_countHit]
          exact hroot

/-- A command that may be installed is not that of a node without a rule. -/
theorem Installs.ne_none {cmd : ℤ} (h : Installs cmd) : cmd ≠ Ift.none := by
  rintro rfl
  revert h
  decide

/-- What a command that may be installed leaves in a node is a verdict. -/
theorem Installs.installed {cmd v : ℤ} (h : Installs cmd) (hv : installed cmd = some v) :
    IsVerdict v := by
  rw [XGrey.installed] at hv
  split_ifs at hv with hremove
  cases hv
  exact h.resolve_right hremove

/-- The walk of `ip_add_sm` changes the rule of the prefix only, which is not that of the
node it starts from. -/
theorem ipAddLoop_guarantees (ip : List UInt8) {cmd : ℤ} (hcmd : Installs cmd) (mask : ℕ)
    {t : BinTrie IpNode} (h : IpVerdicts t) (off : ℤ) (bit : ℕ) (ipcnt : ℤ) :
    Guarantees (ipAddLoop ip cmd mask t off bit ipcnt)
      (fun r => IpVerdicts r.1 ∧ (mask ≠ 0 → ipRules r.1 [] = ipRules t []))
      InsideCounters := by
  induction mask generalizing t off bit ipcnt with
  | zero =>
      cases t with
      | nil => exact guarantees_error (insideCounters_memory rfl)
      | node n zero one =>
          obtain ⟨hn, hzero, hone⟩ := ipVerdicts_node.mp h
          obtain ⟨hrule, -⟩ := ruleOf_ipInstall cmd n ipcnt
          refine guarantees_ok ⟨?_, fun hne => absurd rfl hne⟩
          refine ipVerdicts_node.mpr ⟨fun v hv => ?_, hzero, hone⟩
          rw [hrule hcmd.ne_none] at hv
          exact hcmd.installed hv
  | succ mask ih =>
      cases t with
      | nil => exact guarantees_error (insideCounters_memory rfl)
      | node n zero one =>
          obtain ⟨hn, hzero, hone⟩ := ipVerdicts_node.mp h
          rw [ipAddLoop]
          generalize roll off bit = place
          refine (guarantees_peek ip _).bind fun octet _ => ?_
          dsimp only
          split_ifs
          · refine (ih (ipVerdicts_childOrNew hzero) _ _ ipcnt).bind ?_
            rintro ⟨zero', ipcnt'⟩ ⟨hzero', -⟩
            exact guarantees_ok ⟨ipVerdicts_node.mpr ⟨hn, hzero', hone⟩, fun _ => rfl⟩
          · refine (ih (ipVerdicts_childOrNew hone) _ _ ipcnt).bind ?_
            rintro ⟨one', ipcnt'⟩ ⟨hone', -⟩
            exact guarantees_ok ⟨ipVerdicts_node.mpr ⟨hn, hzero, hone'⟩, fun _ => rfl⟩

/-- **`ip_add_sm`** keeps a tree of verdicts if the command may be installed. Without
assertions the mask may be any number. -/
theorem ipAddSm_guarantees (ndebug : Bool) {l : IpList} (h : IpGuarded l.tree)
    (ip : List UInt8) {mask cmd : ℤ}
    (hcmd : 0 ≤ mask → ndebug = true ∨ mask ≤ 32 → Installs cmd) :
    Guarantees (ipAddSm ndebug l ip mask cmd) (fun l' => IpGuarded l'.tree)
      InsideCounters := by
  obtain ⟨tree, ipcnt⟩ := l
  rw [ipAddSm]
  refine (assert_guarantees ndebug _).bind fun _ _ => ?_
  refine (assert_guarantees ndebug _).bind fun _ hmask => ?_
  by_cases hzero : mask = 0
  · have hinstalls := hcmd (by omega) (Or.inr (by omega))
    rw [if_pos hzero]
    cases tree with
    | nil => exact guarantees_error (insideCounters_memory rfl)
    | node n zero one =>
        refine guarantees_ok ?_
        split_ifs with hremove
        · have hrule : ruleOf { n with cmd := cmd } = some cmd := if_neg hinstalls.ne_none
          obtain ⟨-, hsub⟩ := ipVerdicts_node.mp h.verdicts
          refine ⟨ipVerdicts_node.mpr ⟨fun v hv => ?_, hsub⟩, ?_⟩
          · rw [hrule] at hv
            cases hv
            exact hinstalls.resolve_right hremove
          · dsimp only
            rw [ipRules_node_nil, hrule]
            exact Option.some_ne_none cmd
        · exact h
  · rw [if_neg hzero]
    by_cases hneg : mask < 0
    · rw [if_pos hneg]
      exact guarantees_error (insideCounters_memory rfl)
    · have hinstalls := hcmd (by omega) (hmask.imp_right fun h => by omega)
      rw [if_neg hneg]
      refine (ipAddLoop_guarantees ip hinstalls mask.toNat h.verdicts (-1) 0 ipcnt).bind ?_
      rintro ⟨tree', ipcnt'⟩ ⟨hv, hroot⟩
      refine guarantees_ok ⟨hv, ?_⟩
      dsimp only
      rw [hroot (by omega)]
      exact h.root

/-! ### The address lists -/

/-- What an address list needs to answer every lookup with a verdict and to count it. -/
structure AddrList.Guarded (l : AddrList) : Prop extends AddrList.Verdicts l where
  length_cmdcnt : l.cmdcnt.length = 3

theorem addrListGuarded_init : AddrList.init.Guarded :=
  ⟨⟨by simp [AddrList.init], Or.inl rfl⟩, rfl⟩

/-- Writing an entry with a verdict. -/
theorem verdicts_set {array : List EDomain} (h : ∀ e ∈ array, IsVerdict e.cmd) (i : ℕ)
    {rec : EDomain} (hrec : IsVerdict rec.cmd) : ∀ e ∈ array.set i rec, IsVerdict e.cmd := by
  intro e he
  rcases List.mem_or_eq_of_mem_set he with he | rfl
  · exact h e he
  · exact hrec

/-- Counting a verdict succeeds. -/
theorem bump_guarantees {cnt : List ℕ} (h : cnt.length = 3) {cmd : ℤ} (hcmd : IsVerdict cmd) :
    Guarantees (bump cnt cmd) (fun cnt' => cnt'.length = 3) InsideCounters := by
  obtain ⟨cnt', hlen, hbump⟩ := bump_eq h cmd
  rw [hbump, if_pos hcmd]
  exact guarantees_ok hlen

/-- **One lookup** in an address list finds a verdict. -/
theorem consult_guarantees {l : AddrList} (h : l.Guarded) (text : List UInt8) :
    Guarantees (consult l text) (fun r => IsVerdict r.1.2 ∧ r.2.Guarded) InsideCounters := by
  obtain ⟨-, hfound⟩ := edomainSearch_bounds text l.entries
  rw [consult]
  cases hsearch : (edomainSearch text l.entries).1 with
  | none =>
      refine (bump_guarantees h.length_cmdcnt h.dflt).bind fun cnt hcnt => ?_
      exact guarantees_ok ⟨h.dflt, ⟨h.entries, h.dflt⟩, hcnt⟩
  | some i =>
      obtain ⟨-, hi, -⟩ := hfound i hsearch
      have hget : l.entries.getD i default = l.entries[i] := by simp [hi]
      have hv : IsVerdict (l.entries.getD i default).cmd :=
        hget ▸ h.entries _ (List.getElem_mem hi)
      refine (bump_guarantees h.length_cmdcnt hv).bind fun cnt hcnt => ?_
      exact guarantees_ok ⟨hv, ⟨verdicts_set h.entries i hv, h.dflt⟩, hcnt⟩

/-- **The two lookups for an address** find verdicts. -/
theorem checkAddress_guarantees {addr dom : AddrList} (ha : addr.Guarded) (hd : dom.Guarded)
    (mem : List UInt8) (why whyDomain : Reason) :
    Guarantees (checkAddress addr dom mem why whyDomain)
      (fun r => (∀ stage, r.1 = some stage → IsVerdict stage.1) ∧ r.2.1.Guarded ∧
        r.2.2.Guarded) InsideCounters := by
  have hstage : ∀ {cmd : ℤ} (why : Reason), IsVerdict cmd →
      ∀ stage, some (cmd, why) = some stage → IsVerdict stage.1 := by
    rintro cmd why hcmd stage hstage
    cases hstage
    exact hcmd
  rw [checkAddress]
  refine (guarantees_of_memory fun e => cstring_error).bind fun text _ => ?_
  refine (consult_guarantees ha text).bind ?_
  rintro ⟨⟨explicit, cmd⟩, addr'⟩ ⟨hcmd, ha'⟩
  dsimp only at hcmd ha' ⊢
  split_ifs
  · exact guarantees_ok ⟨hstage why hcmd, ha', hd⟩
  · exact guarantees_ok ⟨by simp, ha', hd⟩
  · cases strchr text 64 with
    | none => exact guarantees_ok ⟨by simp, ha', hd⟩
    | some at' =>
        refine (consult_guarantees hd at'.tail).bind ?_
        rintro ⟨⟨explicit', cmd'⟩, dom'⟩ ⟨hcmd', hd'⟩
        dsimp only at hcmd' hd' ⊢
        split_ifs
        · exact guarantees_ok ⟨hstage whyDomain hcmd', ha', hd'⟩
        · exact guarantees_ok ⟨by simp, ha', hd'⟩

/-- An insertion brings in the new entry only. -/
theorem edomainAdd_guarantees (ndebug : Bool) {l : AddrList} (h : l.Guarded) {rec : EDomain}
    (hrec : IsVerdict rec.cmd) (index : ℕ) :
    Guarantees (edomainAdd ndebug l rec index) AddrList.Guarded InsideCounters := by
  by_cases hindex : index ≤ l.entries.length
  · by_cases hmax : l.entries.length ≤ l.smax
    · rw [edomainAdd_eq hmax rec hindex]
      refine guarantees_ok ⟨⟨fun e he => ?_, h.dflt⟩, h.length_cmdcnt⟩
      rcases mem_insertAt.mp he with rfl | he
      · exact hrec
      · exact h.entries e he
    · rw [edomainAdd, cassert_of hindex, ok_bind]
      dsimp only
      rw [if_neg (by omega), if_neg (by split_ifs <;> omega)]
      exact guarantees_error (insideCounters_memory rfl)
  · rw [edomainAdd]
    refine (assert_guarantees ndebug _).bind fun _ _ => ?_
    dsimp only
    rw [if_pos (by omega)]
    exact guarantees_error fun h => by cases h

theorem edomainRemove_guarantees (ndebug : Bool) {l : AddrList} (h : l.Guarded)
    (index : ℕ) :
    Guarantees (edomainRemove ndebug l index) AddrList.Guarded InsideCounters := by
  rw [edomainRemove]
  refine (assert_guarantees ndebug _).bind fun _ _ => ?_
  split_ifs
  · exact guarantees_ok h
  · refine guarantees_ok ⟨⟨fun e he => ?_, h.dflt⟩, h.length_cmdcnt⟩
    exact h.entries e ((deleteAt_sublist l.entries index).subset he)
  · exact guarantees_error (insideCounters_memory rfl)

/-- **A command for an address list** keeps its verdicts if it may be installed. -/
theorem mcpTofromList_guarantees (ndebug : Bool) {l : AddrList} (h : l.Guarded)
    (text : List UInt8) {cmd : ℤ} (hcmd : Installs cmd) :
    Guarantees (mcpTofromList ndebug l text cmd) AddrList.Guarded InsideCounters := by
  rw [mcpTofromList]
  by_cases hdefault : text = ascii "default" ∨ text = ascii "DEFAULT"
  · rw [if_pos hdefault]
    split_ifs with hremove
    · exact guarantees_ok ⟨⟨h.entries, hcmd.resolve_right hremove⟩, h.length_cmdcnt⟩
    · exact guarantees_ok h
  · rw [if_neg hdefault]
    generalize edomainSearch text l.entries = found
    obtain ⟨_ | i, index⟩ := found
    · dsimp only
      split_ifs with hremove
      · exact edomainAdd_guarantees ndebug h (hcmd.resolve_right hremove) index
      · exact guarantees_ok h
    · dsimp only
      split_ifs with hremove
      · exact edomainRemove_guarantees ndebug h index
      · exact guarantees_ok
          ⟨⟨verdicts_set h.entries i (hcmd.resolve_right hremove), h.dflt⟩, h.length_cmdcnt⟩

/-! ### The tuples -/

/-- A sweep does not count verdicts. -/
theorem tupleExpire_guarantees (cfg : Config) (s : TupleSpace) (tao : ℤ) :
    Guarantees (tupleExpire cfg s tao) (fun _ => True) InsideCounters := by
  have hstep : ∀ st : TupleSpace × ℕ, ∀ i ∈ List.range cfg.poolmax, True →
      Guarantees (reclaimStep cfg st i) (fun _ => True) InsideCounters := by
    intro st i _ _
    rw [reclaimStep]
    split_ifs
    · refine (assert_guarantees cfg.ndebug _).bind fun _ _ => ?_
      exact guarantees_ok trivial
    · exact guarantees_error (insideCounters_memory rfl)
    · exact guarantees_ok trivial
  rw [tupleExpire]
  exact (guarantees_foldlM hstep trivial).bind fun _ _ => guarantees_ok trivial

theorem tupleAllocate_guarantees (cfg : Config) (s : TupleSpace) (clock : ℤ) :
    Guarantees (tupleAllocate cfg s clock) (fun _ => True) InsideCounters := by
  rw [tupleAllocate]
  refine (assert_guarantees cfg.ndebug _).bind fun _ _ => ?_
  split_ifs
  · refine (tupleExpire_guarantees cfg s clock).bind fun s' _ => ?_
    split_ifs <;> exact guarantees_ok trivial
  · exact guarantees_ok trivial

theorem tupleAdd_guarantees (cfg : Config) (s : TupleSpace) (rec index : ℕ) :
    Guarantees (tupleAdd cfg s rec index) (fun _ => True) InsideCounters := by
  rw [tupleAdd]
  refine (assert_guarantees cfg.ndebug _).bind fun _ _ => ?_
  refine (assert_guarantees cfg.ndebug _).bind fun _ _ => ?_
  refine (assert_guarantees cfg.ndebug _).bind fun _ _ => ?_
  refine (assert_guarantees cfg.ndebug _).bind fun _ _ => ?_
  dsimp only
  by_cases hindex : index ≤ s.countWrite.poolnum
  · rw [if_pos hindex]
    have hmove : ∀ a e, memmove s.countWrite.tuplespace (index + 1) index a = .error e →
        e = .memory := by
      intro a e he
      rw [memmove] at he
      split_ifs at he
      cases he
      rfl
    refine (guarantees_of_memory (hmove _)).bind fun _ _ => ?_
    split_ifs <;> exact guarantees_ok trivial
  · rw [if_neg hindex]
    exact guarantees_error fun h => by cases h

/-- **The tuples** answer with a verdict. -/
theorem typeGreylistCheckTuple_guarantees (cfg : Config) (s : TupleSpace) (tuple : Tuple)
    (cmd : Cmd) (now clock : ℤ) :
    Guarantees (typeGreylistCheckTuple cfg s tuple cmd now clock)
      (fun r => IsVerdict r.1.1) InsideCounters where
  ok r hr := typeGreylistCheckTuple_verdict hr
  error e he := by
    have hany : Guarantees (typeGreylistCheckTuple cfg s tuple cmd now clock)
        (fun _ => True) InsideCounters := by
      rw [typeGreylistCheckTuple]
      generalize tupleSearch s tuple = found
      obtain ⟨_ | stored, idx, s⟩ := found
      · refine (tupleAllocate_guarantees cfg s clock).bind fun r _ => ?_
        refine (tupleAdd_guarantees cfg _ r.1 _).bind fun s' _ => ?_
        dsimp only
        split_ifs <;> exact guarantees_ok trivial
      · dsimp only
        split_ifs <;> exact guarantees_ok trivial
    exact hany.error e he

theorem whitelistLoadTuple_guarantees (cfg : Config) (s : TupleSpace) (tuple : Tuple)
    (now clock : ℤ) :
    Guarantees (whitelistLoadTuple cfg s tuple now clock) (fun _ => True)
      InsideCounters := by
  rw [whitelistLoadTuple]
  generalize tupleSearch s tuple = found
  obtain ⟨_ | stored, idx, s⟩ := found
  · refine (tupleAllocate_guarantees cfg s clock).bind fun r _ => ?_
    exact (tupleAdd_guarantees cfg _ r.1 _).bind fun s' _ => guarantees_ok trivial
  · exact guarantees_ok trivial

/-- The whitelist file does not count verdicts either. -/
theorem whitelistLoad_guarantees (cgi : CgiLib) (cfg : Config) (now : ℤ) (s : TupleSpace)
    (lines : List WhiteLine) :
    Guarantees (whitelistLoad cgi cfg now s lines) (fun _ => True) InsideCounters := by
  have hstep : ∀ s : TupleSpace, ∀ line ∈ lines, True →
      Guarantees (whitelistLoadLine cgi cfg now s line) (fun _ => True) InsideCounters := by
    intro s line _ _
    rw [whitelistLoadLine]
    split_ifs
    · exact guarantees_ok trivial
    · refine (guarantees_of_memory fun e => WhiteLine.tuple_error).bind fun tuple _ => ?_
      cases tuple with
      | none => exact guarantees_ok trivial
      | some tuple => exact whitelistLoadTuple_guarantees cfg s tuple now line.clock
  rw [whitelistLoad]
  exact (guarantees_foldlM hstep trivial).bind fun s' _ => guarantees_ok trivial

/-! ### A request -/

/-- What the server needs to answer every request with a verdict and to count it. -/
structure Server.Guarded (srv : Server) : Prop where
  ip : IpGuarded srv.iplist.tree
  ipCmdcnt : srv.ipCmdcnt.length = 3
  fromL : srv.fromL.Guarded
  fromdL : srv.fromdL.Guarded
  toL : srv.toL.Guarded
  todL : srv.todL.Guarded

namespace Server.Guarded

variable {srv : Server}

/-- The rules do not depend on the tuples. -/
theorem withStore (h : srv.Guarded) (store : TupleSpace) :
    Server.Guarded { srv with store := store } :=
  ⟨h.ip, h.ipCmdcnt, h.fromL, h.fromdL, h.toL, h.todL⟩

end Server.Guarded

/-- The server starts with `GREYLIST` for everything. -/
theorem serverGuarded_init (cfg : Config) (starttime : ℤ) :
    (Server.init cfg starttime).Guarded := by
  obtain ⟨hip, -, -, -, -⟩ := rulesOk_init cfg starttime
  exact ⟨⟨hip, ipTreeOk_init.root⟩, rfl, addrListGuarded_init, addrListGuarded_init,
    addrListGuarded_init, addrListGuarded_init⟩

/-- A reply with a verdict. -/
def VerdictReply (req : Request) (response : Cmd) (out : List Output) : Prop :=
  ∃ rc why, IsVerdict rc ∧ out = [req.reply response rc why]

/-- **A request** that is accepted is answered with a verdict, and the rules stay
verdicts. -/
theorem typeGreylist_guarantees (cfg : Config) {srv : Server} (h : srv.Guarded)
    {req : Request} (hacc : req.Accepts) (cmd response : Cmd) :
    Guarantees (typeGreylist cfg srv req cmd response)
      (fun r => VerdictReply req response r.1 ∧ r.2.1.Guarded) InsideCounters := by
  have hsend : ∀ {rc : ℤ} (why : Reason) (srv' : Server), IsVerdict rc → srv'.Guarded →
      Guarantees (do
          let out ← sendReply cfg.ndebug req.converted response rc why
          .ok (out, srv', req.converted))
        (fun r => VerdictReply req response r.1 ∧ r.2.1.Guarded) InsideCounters := by
    intro rc why srv' hrc hsrv'
    rw [sendReply_verdict req response hrc why, ok_bind]
    exact guarantees_ok ⟨⟨rc, why, hrc, rfl⟩, hsrv'⟩
  rw [typeGreylist, greylistSanitizeReq_of_accepts cfg hacc, ok_bind]
  dsimp only
  refine (ipMatch_guarantees cfg.ndebug h.ip _).bind ?_
  rintro ⟨rc, tree⟩ ⟨hrc, htree⟩
  refine (bump_guarantees h.ipCmdcnt hrc).bind fun ipCmdcnt hcnt => ?_
  dsimp only at hrc htree ⊢
  split_ifs
  · exact hsend _ _ hrc ⟨htree, hcnt, h.fromL, h.fromdL, h.toL, h.todL⟩
  refine (checkAddress_guarantees h.fromL h.fromdL _ .sender .senderDomain).bind ?_
  rintro ⟨verdict, fromL, fromdL⟩ ⟨hverdict, hfrom, hfromd⟩
  dsimp only at hverdict hfrom hfromd ⊢
  cases verdict with
  | some verdict =>
      exact hsend verdict.2 _ (hverdict _ rfl) ⟨htree, hcnt, hfrom, hfromd, h.toL, h.todL⟩
  | none =>
      refine (checkAddress_guarantees h.toL h.todL _ .recipient .recipientDomain).bind ?_
      rintro ⟨verdict, toL, todL⟩ ⟨hverdict, hto, htod⟩
      dsimp only at hverdict hto htod ⊢
      cases verdict with
      | some verdict =>
          exact hsend verdict.2 _ (hverdict _ rfl) ⟨htree, hcnt, hfrom, hfromd, hto, htod⟩
      | none =>
          refine (typeGreylistCheckTuple_guarantees cfg _ _ cmd req.now req.clock).bind ?_
          rintro ⟨⟨rc, why⟩, store⟩ hrc
          exact hsend why _ hrc ⟨htree, hcnt, hfrom, hfromd, hto, htod⟩

end XGrey
