import XGrey.IpRules
import XGrey.Sanitize

/-!
# The Filter

What the documented filter is, and that `type_greylist` applies it. A request goes through
stages, each of which gives a verdict; the first one that does not say `GREYLIST` decides
(`decision`). Which stages there are for an address is `addressStages`: an explicit rule
for the address skips its domain, and an address without an `@` has none.

The counters of the daemon have room for three verdicts. A stage whose rule has any other
command steps outside them, which is why the walk over the stages (`decideStages`) can
fail.

## Main results

* `checkAddress_eq`: the two lookups for an address walk over its stages.
* `typeGreylist_eq`: `type_greylist` walks over the stages of the request, and turns to
  the tuples only if none of them decides. The filter itself does not change.
-/

open CRuntime SortedSeq PrefixMap

namespace XGrey

/-! ### The documented filter -/

/-- Rules for texts, with a default for those that have none. -/
structure TextRules where
  rule : List UInt8 → Option ℤ
  dflt : ℤ

/-- The verdict on a text. -/
def TextRules.verdict (r : TextRules) (text : List UInt8) : ℤ := (r.rule text).getD r.dflt

/-- What follows the first `@` of an address. -/
def domainOf (text : List UInt8) : Option (List UInt8) :=
  if 64 ∈ text then some (text.drop (text.idxOf 64 + 1)) else none

/-- The stages for an address: its own rule or default, and its domain unless the rule is
its own. -/
def addressStages (addr dom : TextRules) (text : List UInt8) (why whyDomain : Reason) :
    List (ℤ × Reason) :=
  (addr.verdict text, why) ::
    if (addr.rule text).isSome then []
    else ((domainOf text).map fun d => (dom.verdict d, whyDomain)).toList

/-- The rules of the whole filter. -/
structure FilterRules where
  /-- the verdict on a client address -/
  ip : List UInt8 → ℤ
  sender : TextRules
  senderDomain : TextRules
  recipient : TextRules
  recipientDomain : TextRules

/-- The stages of a request, in the order in which they are consulted. -/
def FilterRules.stages (r : FilterRules) (ip sender recipient : List UInt8) :
    List (ℤ × Reason) :=
  (r.ip ip, .ip) ::
    (addressStages r.sender r.senderDomain sender .sender .senderDomain ++
      addressStages r.recipient r.recipientDomain recipient .recipient .recipientDomain)

/-- The first stage that does not say `GREYLIST` decides. -/
def decision (stages : List (ℤ × Reason)) : Option (ℤ × Reason) :=
  stages.find? fun stage => stage.1 ≠ Ift.greylist

/-- The walk over the stages, each of which is counted under its command. -/
def decideStages : List (ℤ × Reason) → Exec (Option (ℤ × Reason))
  | [] => .ok none
  | stage :: rest =>
      if IsVerdict stage.1 then
        if stage.1 ≠ Ift.greylist then .ok (some stage) else decideStages rest
      else .error .subscript

/-- Among verdicts the walk finds the stage that decides. -/
theorem decideStages_eq {stages : List (ℤ × Reason)} (h : ∀ stage ∈ stages, IsVerdict stage.1) :
    decideStages stages = .ok (decision stages) := by
  induction stages with
  | nil => rfl
  | cons stage rest ih =>
      obtain ⟨hstage, hrest⟩ := List.forall_mem_cons.mp h
      rw [decideStages, if_pos hstage, decision, List.find?_cons]
      by_cases hg : stage.1 ≠ Ift.greylist
      · rw [if_pos hg]
        simp [hg]
      · rw [if_neg hg, ih hrest]
        simp only [hg, decide_false]
        rfl

/-- A stage that says `GREYLIST` is passed. -/
theorem decideStages_cons_greylist {stage : ℤ × Reason} (h : stage.1 = Ift.greylist)
    (rest : List (ℤ × Reason)) : decideStages (stage :: rest) = decideStages rest := by
  rw [decideStages, if_pos (show IsVerdict stage.1 from Or.inl h), if_neg (not_not.mpr h)]

/-- A stage that accepts or rejects decides. -/
theorem decideStages_cons_of {cmd : ℤ} (h : cmd = Ift.accept ∨ cmd = Ift.reject)
    (why : Reason) (rest : List (ℤ × Reason)) :
    decideStages ((cmd, why) :: rest) = .ok (some (cmd, why)) := by
  have hgrey : cmd ≠ Ift.greylist := by
    rcases h with rfl | rfl <;> decide
  rw [decideStages, if_pos (show IsVerdict cmd from Or.inr h), if_pos hgrey]

/-- Stages that all say `GREYLIST` decide nothing. -/
theorem decideStages_greylist {stages : List (ℤ × Reason)}
    (h : ∀ stage ∈ stages, stage.1 = Ift.greylist) : decideStages stages = .ok none := by
  rw [decideStages_eq fun stage hstage => Or.inl (h stage hstage), decision,
    List.find?_eq_none.mpr fun stage hstage => by simpa using h stage hstage]

/-- The walk over two lists of stages, one after the other. -/
theorem decideStages_append (a b : List (ℤ × Reason)) :
    decideStages (a ++ b) = (do
      match ← decideStages a with
      | some stage => .ok (some stage)
      | none => decideStages b) := by
  induction a with
  | nil => rfl
  | cons stage rest ih =>
      rw [List.cons_append, decideStages, decideStages, ih]
      split_ifs <;> rfl

/-- The walk fails only by stepping outside the counters. -/
theorem decideStages_error {stages : List (ℤ × Reason)} {e : Fault}
    (h : decideStages stages = .error e) : e = .subscript := by
  induction stages with
  | nil => cases h
  | cons stage rest ih =>
      rw [decideStages] at h
      split_ifs at h
      · exact ih h
      · cases h
        rfl

/-- What the walk returns is a stage with a verdict. -/
theorem decideStages_some {stages : List (ℤ × Reason)} {stage : ℤ × Reason}
    (h : decideStages stages = .ok (some stage)) : stage ∈ stages ∧ IsVerdict stage.1 := by
  induction stages with
  | nil => cases h
  | cons head rest ih =>
      rw [decideStages] at h
      split_ifs at h with hv hg
      · cases h
        exact ⟨List.mem_cons_self, hv⟩
      · obtain ⟨hmem, hstage⟩ := ih h
        exact ⟨List.mem_cons_of_mem _ hmem, hstage⟩

/-! ### The filter of a server -/

/-- The rules of an address list. -/
def AddrList.rules (l : AddrList) : TextRules where
  rule text := (findText l.entries text).map EDomain.cmd
  dflt := l.dflt

/-- The rules of the server. -/
def Server.filter (srv : Server) : FilterRules where
  ip ip := (longest (ipRules srv.iplist.tree) (prefixBits ip 32)).getD Ift.greylist
  sender := srv.fromL.rules
  senderDomain := srv.fromdL.rules
  recipient := srv.toL.rules
  recipientDomain := srv.todL.rules

/-- What the filter relies on: a tree of rules, sorted lists, and three counters for each
of them. -/
structure FilterOk (srv : Server) : Prop where
  tree : IpTreeOk srv.iplist.tree
  ipCmdcnt : srv.ipCmdcnt.length = 3
  fromL : AddrListOk srv.fromL
  fromdL : AddrListOk srv.fromdL
  toL : AddrListOk srv.toL
  todL : AddrListOk srv.todL

/-- What it relies on apart from the tree. -/
structure ListsOk (srv : Server) : Prop where
  ipCmdcnt : srv.ipCmdcnt.length = 3
  fromL : AddrListOk srv.fromL
  fromdL : AddrListOk srv.fromdL
  toL : AddrListOk srv.toL
  todL : AddrListOk srv.todL

theorem FilterOk.lists {srv : Server} (h : FilterOk srv) : ListsOk srv :=
  ⟨h.ipCmdcnt, h.fromL, h.fromdL, h.toL, h.todL⟩

/-- Two servers with the same rules for addresses. -/
structure SameRules (srv srv' : Server) : Prop where
  fromL : srv'.fromL.rules = srv.fromL.rules
  fromdL : srv'.fromdL.rules = srv.fromdL.rules
  toL : srv'.toL.rules = srv.toL.rules
  todL : srv'.todL.rules = srv.todL.rules

theorem filterOk_init (cfg : Config) (starttime : ℤ) :
    FilterOk (Server.init cfg starttime) :=
  ⟨ipTreeOk_init, rfl, addrListOk_init, addrListOk_init, addrListOk_init, addrListOk_init⟩

/-! ### One lookup -/

/-- Three counters have room for the verdicts and for nothing else. -/
theorem bump_eq {cnt : List ℕ} (h : cnt.length = 3) (cmd : ℤ) :
    ∃ cnt' : List ℕ, cnt'.length = 3 ∧
      bump cnt cmd = if IsVerdict cmd then .ok cnt' else .error .subscript := by
  refine ⟨cnt.set cmd.toNat (cnt.getD cmd.toNat 0 + 1), by rw [List.length_set, h], ?_⟩
  have hiff : (0 ≤ cmd ∧ cmd < (cnt.length : ℤ)) ↔ IsVerdict cmd := by
    rw [h, IsVerdict, Ift.greylist, Ift.accept, Ift.reject]
    omega
  rw [bump]
  exact if_congr hiff rfl rfl

/-- Counting a hit leaves the texts and the rules of a list alone. -/
theorem texts_set_count (array : List EDomain) (i n : ℕ) :
    texts (array.set i { array.getD i default with count := n }) = texts array := by
  by_cases hi : i < array.length
  · rw [texts, List.map_set, texts]
    have hget : array.getD i default = array[i] := by simp [hi]
    rw [hget]
    have hi' : i < (array.map EDomain.text).length := by simpa using hi
    exact List.set_getElem_self hi' ▸ by simp
  · rw [List.set_eq_of_length_le (not_lt.mp hi)]

theorem findText_set_count (array : List EDomain) (i n : ℕ) (text : List UInt8) :
    (findText (array.set i { array.getD i default with count := n }) text).map EDomain.cmd =
      (findText array text).map EDomain.cmd := by
  unfold findText
  induction array generalizing i with
  | nil => rfl
  | cons e array ih =>
      cases i with
      | zero =>
          simp only [List.set_cons_zero, List.getD_cons_zero, List.find?_cons]
          by_cases h : e.text = text <;> simp [h]
      | succ i =>
          simp only [List.set_cons_succ, List.getD_cons_succ, List.find?_cons]
          by_cases h : e.text = text
          · simp [h]
          · simpa [h] using ih i

/-- **One lookup** in an address list: the verdict on the text is counted, and that it has
a rule of its own is reported. -/
theorem consult_eq {l : AddrList} (h : AddrListOk l) (text : List UInt8) :
    ∃ l', AddrListOk l' ∧ l'.rules = l.rules ∧
      consult l text =
        if IsVerdict (l.rules.verdict text) then
          .ok (((l.rules.rule text).isSome, l.rules.verdict text), l')
        else .error .subscript := by
  have hfind : l.rules.rule text = _ :=
    congrArg (Option.map EDomain.cmd) (findText_eq h.sorted text)
  rw [TextRules.verdict]
  rw [hfind, consult]
  rcases edomainSearch_spec h.sorted text with ⟨i, hi, hsearch, -⟩ | ⟨idx, hsearch, -⟩
  · rw [hsearch]
    have hget : l.entries.getD i default = l.entries[i] := by simp [hi]
    obtain ⟨cnt, hcnt, hbump⟩ := bump_eq h.length_cmdcnt l.entries[i].cmd
    refine ⟨{ l with
      entries := l.entries.set i { l.entries.getD i default with
        count := l.entries[i].count + 1 }
      cmdcnt := cnt }, ⟨?_, ?_, hcnt⟩, ?_, ?_⟩
    · dsimp only
      rw [texts_set_count]
      exact h.sorted
    · dsimp only
      rw [List.length_set]
      exact h.length_le
    · simp only [AddrList.rules, findText_set_count]
    · dsimp only
      rw [hget, hbump]
      simp only [List.getElem?_eq_getElem hi, Option.bind_some, Option.map_some,
        Option.isSome_some, Option.getD_some]
      split_ifs <;> rfl
  · rw [hsearch]
    obtain ⟨cnt, hcnt, hbump⟩ := bump_eq h.length_cmdcnt l.dflt
    refine ⟨{ l with dfltc := l.dfltc + 1, cmdcnt := cnt }, ⟨h.sorted, h.length_le, hcnt⟩,
      rfl, ?_⟩
    dsimp only
    rw [hbump]
    change (if IsVerdict l.dflt then Except.ok cnt else _) >>= _ =
      if IsVerdict l.dflt then _ else _
    split_ifs <;> rfl

/-! ### The stages for an address -/

/-- **The two lookups for an address** walk over its stages. -/
theorem checkAddress_eq {addr dom : AddrList} (ha : AddrListOk addr) (hd : AddrListOk dom)
    {mem : List UInt8} (hmem : 0 ∈ mem) (why whyDomain : Reason) :
    ∃ addr' dom', AddrListOk addr' ∧ addr'.rules = addr.rules ∧
      AddrListOk dom' ∧ dom'.rules = dom.rules ∧
      checkAddress addr dom mem why whyDomain =
        decideStages (addressStages addr.rules dom.rules (mem.takeWhile (· ≠ 0)) why
          whyDomain) >>= fun verdict => .ok (verdict, addr', dom') := by
  generalize htext : mem.takeWhile (· ≠ 0) = text
  obtain ⟨addr', ha', hrules, hconsult⟩ := consult_eq ha text
  rw [checkAddress]
  rw [cstring_eq hmem, ok_bind, htext, hconsult, addressStages, decideStages]
  by_cases hv : IsVerdict (addr.rules.verdict text)
  · rw [if_pos hv, if_pos hv, ok_bind]
    dsimp only
    by_cases hg : addr.rules.verdict text ≠ Ift.greylist
    · rw [if_pos hg, if_pos hg]
      exact ⟨addr', dom, ha', hrules, hd, rfl, rfl⟩
    · rw [if_neg hg, if_neg hg]
      cases hex : (addr.rules.rule text).isSome with
      | true =>
          rw [if_pos rfl, if_pos rfl]
          exact ⟨addr', dom, ha', hrules, hd, rfl, rfl⟩
      | false =>
          rw [if_neg Bool.false_ne_true, if_neg Bool.false_ne_true, domainOf, ← strchr_eq]
          cases hat : strchr text 64 with
          | none => exact ⟨addr', dom, ha', hrules, hd, rfl, rfl⟩
          | some at' =>
              obtain ⟨dom', hd', hrules', hconsult'⟩ := consult_eq hd at'.tail
              refine ⟨addr', dom', ha', hrules, hd', hrules', ?_⟩
              dsimp only [Option.map_some, Option.toList_some]
              rw [hconsult', decideStages, decideStages]
              by_cases hvd : IsVerdict (dom.rules.verdict at'.tail)
              · rw [if_pos hvd, if_pos hvd, ok_bind]
                dsimp only
                split_ifs <;> rfl
              · rw [if_neg hvd, if_neg hvd]
                rfl
  · rw [if_neg hv, if_neg hv]
    exact ⟨addr, dom, ha, rfl, hd, rfl, rfl⟩

/-- A verdict on an address has the reason of one of its two stages. -/
theorem checkAddress_reason {addr dom addr' dom' : AddrList} {mem : List UInt8}
    {why whyDomain w : Reason} {rc : ℤ}
    (h : checkAddress addr dom mem why whyDomain = .ok (some (rc, w), addr', dom')) :
    w = why ∨ w = whyDomain := by
  rw [checkAddress] at h
  obtain ⟨text, -, h⟩ := bind_eq_ok.mp h
  obtain ⟨⟨⟨explicit, cmd⟩, l⟩, -, h⟩ := bind_eq_ok.mp h
  dsimp only at h
  by_cases hcmd : cmd ≠ Ift.greylist
  · rw [if_pos hcmd] at h
    cases h
    exact Or.inl rfl
  rw [if_neg hcmd] at h
  cases explicit with
  | true => cases h
  | false =>
      rw [if_neg Bool.false_ne_true] at h
      cases hat : strchr text 64 with
      | none =>
          rw [hat] at h
          cases h
      | some at' =>
          rw [hat] at h
          obtain ⟨⟨⟨_, cmd'⟩, l'⟩, -, h⟩ := bind_eq_ok.mp h
          dsimp only at h
          by_cases hcmd' : cmd' ≠ Ift.greylist
          · rw [if_pos hcmd'] at h
            cases h
            exact Or.inr rfl
          · rw [if_neg hcmd'] at h
            cases h

end XGrey
