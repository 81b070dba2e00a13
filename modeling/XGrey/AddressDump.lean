import XGrey.AddressLists

/-!
# Saving the Address Lists

`tofrom_dump_stream` of `server/emaildomain.c` and the four functions that call it, which
write an address list as a file in the format that `tofrom_read_stream` reads: a line for
each entry, and last a line for the default.

The loader takes such a line apart at white space and looks up the command by its name. So
a list that is made of texts without white space and of commands that have names is read
back as it was, but for its counts, which the loader sets to zero.

## Main results

* `tofromReadStream_dump`: what the loader makes of a saved list.
* `run_dump_reload`: every list that was made by commands of the control program is read
  back.
-/

open CRuntime Lexicographic SortedSeq ArrayShift KeyedArray TextFile StepRun

namespace XGrey

/-! ### Writing -/

/-- The line for a text with a command and a count, without its newline. -/
def tofromDumpLine (count : ℕ) (cmd : ℤ) (text : List UInt8) : List UInt8 :=
  padLeft 10 (decimal count) ++ 32 :: (padded 8 8 (ciMapChars cmd cIft) ++ 32 :: text)

/-- `tofrom_dump_stream` -/
def tofromDumpStream (list : List EDomain) : List UInt8 :=
  list.flatMap fun e => tofromDumpLine e.count e.cmd e.text ++ [10]

/-- The four functions that write an address list. -/
def AddrList.dumpStream (l : AddrList) : List UInt8 :=
  tofromDumpStream l.entries ++ (tofromDumpLine l.dfltc l.dflt (ascii "DEFAULT") ++ [10])

/-- `to_dump_stream` -/
def toDumpStream (srv : Server) : List UInt8 := srv.toL.dumpStream

/-- `tod_dump_stream` -/
def todDumpStream (srv : Server) : List UInt8 := srv.todL.dumpStream

/-- `from_dump_stream` -/
def fromDumpStream (srv : Server) : List UInt8 := srv.fromL.dumpStream

/-- `fromd_dump_stream` -/
def fromdDumpStream (srv : Server) : List UInt8 := srv.fromdL.dumpStream

/-- The file that is written for an address list. -/
def Server.dumpStream (srv : Server) : ListName → List UInt8
  | .fromL => fromDumpStream srv
  | .fromdL => fromdDumpStream srv
  | .toL => toDumpStream srv
  | .todL => todDumpStream srv

theorem dumpStream_list (srv : Server) (name : ListName) :
    srv.dumpStream name = (srv.list name).dumpStream := by
  cases name <;> rfl

/-! ### Reading a line back -/

/-- A line that was written has no newline inside. -/
theorem newline_notMem_tofromDumpLine {text : List UInt8} (htext : Token text) {cmd : ℤ}
    (hcmd : Named cmd) (count : ℕ) : 10 ∉ tofromDumpLine count cmd text := by
  obtain ⟨hname, hlen, -⟩ := ciMapChars_spec hcmd
  have hpad : ∀ (width : ℕ) {word : List UInt8}, Token word → 10 ∉ padLeft width word := by
    intro width word hword hmem
    rcases mem_padLeft hmem with h | h
    · exact absurd h (by decide)
    · exact hword.notMem rfl h
  rw [tofromDumpLine, padded_of_le hlen]
  simp only [List.mem_append, List.mem_cons, not_or]
  exact ⟨hpad 10 (token_decimal count), by decide, hpad 8 hname, by decide,
    htext.notMem rfl⟩

/-- The fields of a line, as they are written behind the padding. -/
def tofromFields (count : ℕ) (cmd : ℤ) (text : List UInt8) : List UInt8 :=
  decimal count ++ 32 :: (padLeft 8 (ciMapChars cmd cIft) ++ 32 :: text)

section Lines

variable {cgi : CgiLib} {text : List UInt8} {cmd : ℤ}

/-- They begin with a digit. -/
theorem tofromFields_eq_cons (count : ℕ) (cmd : ℤ) (text : List UInt8) :
    ∃ digit rest, isdigit digit = true ∧ tofromFields count cmd text = digit :: rest := by
  obtain ⟨digit, digits, hdigit, hdigits⟩ := decimal_eq_cons count
  refine ⟨digit, digits ++ 32 :: (padLeft 8 (ciMapChars cmd cIft) ++ 32 :: text), hdigit, ?_⟩
  rw [tofromFields, hdigits]
  rfl

/-- They are in front of the end of the line, and white space is in front of them. -/
theorem tofromDumpLine_eq (hcmd : Named cmd) (count : ℕ) (text : List UInt8) :
    ∃ front, tofromDumpLine count cmd text = front ++ tofromFields count cmd text ∧
      ∀ c ∈ front, isspace c = true := by
  obtain ⟨-, hlen, -⟩ := ciMapChars_spec hcmd
  obtain ⟨front, hfront, hspace⟩ := padLeft_eq 10 (decimal count)
  refine ⟨front, ?_, hspace⟩
  rw [tofromDumpLine, padded_of_le hlen, hfront, tofromFields, List.append_assoc]

/-- **The fields** of a line are left when it is trimmed. -/
theorem trimSpace_tofromDumpLine (hcgi : cgi.Behaves) (htext : Token text)
    (hcmd : Named cmd) (count : ℕ) :
    cgi.trimSpace (tofromDumpLine count cmd text ++ [10]) = tofromFields count cmd text := by
  obtain ⟨front, hline, hspace⟩ := tofromDumpLine_eq hcmd count text
  obtain ⟨digit, rest, hdigit, hrest⟩ := tofromFields_eq_cons count cmd text
  obtain ⟨last, hlast, hlastSpace⟩ := htext.getLast?
  have hhead : (tofromFields count cmd text).head? = some digit := by
    rw [hrest]
    rfl
  have hend : (tofromFields count cmd text).getLast? = some last := by
    have happend : tofromFields count cmd text =
        (decimal count ++ 32 :: (padLeft 8 (ciMapChars cmd cIft) ++ [32])) ++ text := by
      simp [tofromFields]
    rw [happend, List.getLast?_append, hlast]
    rfl
  rw [hline]
  exact hcgi.trimSpace_line hspace (not_isspace_of_isdigit hdigit).1 hlastSpace hhead hend

/-- **They come apart** again. -/
theorem split_tofromFields (htext : Token text) (hcmd : Named cmd) (count : ℕ) :
    split (tofromFields count cmd text) = .ok [decimal count, ciMapChars cmd cIft, text] := by
  obtain ⟨hname, -, -⟩ := ciMapChars_spec hcmd
  obtain ⟨gap, hgap, hspace⟩ := padLeft_eq 8 (ciMapChars cmd cIft)
  rw [split, tofromFields, hgap, List.append_assoc, splitLoop_word (token_decimal count) rfl,
    splitLoop_spaces hspace, splitLoop_word hname rfl, splitLoop_last htext]

/-- **A line that was written** is read as what it was written for. -/
theorem tofromLine_dumpLine (hcgi : cgi.Behaves) (htext : Token text) (hcmd : Named cmd)
    (count : ℕ) :
    tofromLine cgi (tofromDumpLine count cmd text ++ [10]) =
      .ok (if IsDefault text then .dflt cmd else .rule text cmd) := by
  obtain ⟨front, hline, -⟩ := tofromDumpLine_eq hcmd count text
  obtain ⟨digit, rest, hdigit, hrest⟩ := tofromFields_eq_cons count cmd text
  have hempty : cgi.emptyString (tofromDumpLine count cmd text ++ [10]) = false := by
    refine hcgi.emptyString_eq_false (c := digit) ?_ (not_isspace_of_isdigit hdigit).1
    rw [hline, hrest]
    simp
  have hcomment : ¬ (tofromFields count cmd text).head? = some 35 := by
    rw [hrest]
    intro h
    cases h
    exact absurd hdigit (by decide)
  rw [tofromLine, hempty]
  dsimp only
  rw [trimSpace_tofromDumpLine hcgi htext hcmd, if_neg Bool.false_ne_true, if_neg hcomment,
    split_tofromFields htext hcmd, ok_bind]
  dsimp only
  rw [ciMapInt_ciMapChars hcmd]
  by_cases hword : IsDefault text
  · have hword' : text = ascii "default" ∨ text = ascii "DEFAULT" := hword
    rw [if_pos hword, if_pos hword']
  · have hword' : ¬ (text = ascii "default" ∨ text = ascii "DEFAULT") := hword
    rw [if_neg hword, if_neg hword']

end Lines

/-! ### Reading a list back -/

/-- An entry that can be saved. -/
structure EDomain.Savable (e : EDomain) : Prop where
  text : Token e.text
  notDefault : ¬ IsDefault e.text
  cmd : Named e.cmd

/-- A list that can be saved. -/
structure AddrList.Savable (l : AddrList) : Prop where
  ok : AddrListOk l
  entries : ∀ e ∈ l.entries, e.Savable
  dflt : Named l.dflt

/-- An entry that was not used yet. -/
def EDomain.unused (e : EDomain) : EDomain := { e with count := 0 }

/-- A rule for a text behind all others is added at the end. -/
theorem tofromAdd_append {l : AddrList} (h : AddrListOk l) (ndebug : Bool) {text : List UInt8}
    (htext : ∀ t ∈ texts l.entries, t < text) (cmd : ℤ) :
    ∃ l', tofromAdd ndebug l (.rule text cmd) = .ok l' ∧ AddrListOk l' ∧
      l'.entries = l.entries ++ [{ text := text, count := 0, cmd := cmd }] := by
  rw [tofromAdd]
  rcases edomainSearch_spec h.sorted text with ⟨i, hi, -, hfound⟩ | ⟨idx, hsearch, hsplit⟩
  · have hmem : text ∈ texts l.entries := hfound ▸ List.mem_map_of_mem (List.getElem_mem hi)
    exact absurd (htext text hmem) (lt_irrefl text)
  · have hidx : idx = l.entries.length := by
      rw [hsplit.eq_countP, List.countP_eq_length.mpr fun t ht => by simpa using htext t ht,
        texts, List.length_map]
    obtain ⟨l', hadd, hok, hentries, -⟩ :=
      @AddrListOk.add l h ndebug { text := text, count := 0, cmd := cmd } idx hsplit
    rw [hsearch]
    refine ⟨l', hadd, hok, ?_⟩
    rw [hentries, hidx, insertAt, List.take_length, List.drop_length]

/-- The entries of a saved list are read one behind the other, whatever comes after them. -/
theorem tofromReadStream_entries {cgi : CgiLib} (hcgi : cgi.Behaves) (ndebug : Bool)
    {l : AddrList} (h : AddrListOk l) {array : List EDomain}
    (harray : ∀ e ∈ array, e.Savable)
    (hs : (texts l.entries ++ texts array).Pairwise (· < ·)) (lines : List (List UInt8)) :
    ∃ l', AddrListOk l' ∧ l'.entries = l.entries ++ array.map EDomain.unused ∧
      tofromReadStream cgi ndebug l true
          ((array.map fun e => tofromDumpLine e.count e.cmd e.text ++ [10]) ++ lines) =
        tofromReadStream cgi ndebug l' true lines := by
  induction array generalizing l with
  | nil => exact ⟨l, h, (List.append_nil _).symm, rfl⟩
  | cons e array ih =>
      obtain ⟨he, hrest⟩ := List.forall_mem_cons.mp harray
      have hbehind : ∀ t ∈ texts l.entries, t < e.text := fun t ht =>
        (List.pairwise_append.mp hs).2.2 t ht e.text List.mem_cons_self
      obtain ⟨l₁, hadd, hl₁, hentries⟩ := tofromAdd_append h ndebug hbehind e.cmd
      have hs₁ : (texts l₁.entries ++ texts array).Pairwise (· < ·) := by
        rw [hentries, texts, List.map_append, List.append_assoc]
        exact hs
      obtain ⟨l', hl', hall, hread⟩ := ih hl₁ hrest hs₁
      refine ⟨l', hl', ?_, ?_⟩
      · rw [hall, hentries, List.append_assoc]
        rfl
      · have hline := tofromLine_dumpLine hcgi he.text he.cmd e.count
        rw [if_neg he.notDefault] at hline
        rw [List.map_cons, List.cons_append, tofromReadStream, if_pos rfl, hline, ok_bind,
          hadd, ok_bind, if_pos List.getLast?_concat]
        exact hread

/-- **What the loader makes of a saved list**: the same entries and the same default,
without their counts. -/
theorem tofromReadStream_dump {cgi : CgiLib} (hcgi : cgi.Behaves) (ndebug : Bool)
    {l : AddrList} (h : l.Savable) :
    ∃ l', tofromReadStream cgi ndebug AddrList.init true (getlines 10 l.dumpStream) = .ok l' ∧
      AddrListOk l' ∧ l'.entries = l.entries.map EDomain.unused ∧ l'.dflt = l.dflt ∧
      l'.dfltc = 0 := by
  have hword : Token (ascii "DEFAULT") := Token.of_all (by decide) (by decide)
  have hlines : getlines 10 l.dumpStream =
      (l.entries.map fun e => tofromDumpLine e.count e.cmd e.text ++ [10]) ++
        [tofromDumpLine l.dfltc l.dflt (ascii "DEFAULT") ++ [10]] := by
    have hlast := newline_notMem_tofromDumpLine hword h.dflt l.dfltc
    rw [AddrList.dumpStream, tofromDumpStream, getlines_flatMap fun e he =>
      newline_notMem_tofromDumpLine (h.entries e he).text (h.entries e he).cmd e.count,
      getlines_line hlast]
    rfl
  have hs : (texts AddrList.init.entries ++ texts l.entries).Pairwise (· < ·) := h.ok.sorted
  obtain ⟨l', hl', hentries, hread⟩ := tofromReadStream_entries hcgi ndebug addrListOk_init
    h.entries hs [tofromDumpLine l.dfltc l.dflt (ascii "DEFAULT") ++ [10]]
  have hline := tofromLine_dumpLine hcgi hword h.dflt l.dfltc
  rw [if_pos (show IsDefault (ascii "DEFAULT") from Or.inr rfl)] at hline
  refine ⟨{ l' with dflt := l.dflt, dfltc := 0 }, ?_,
    ⟨hl'.sorted, hl'.length_le, hl'.length_cmdcnt⟩, hentries, rfl, rfl⟩
  rw [hlines, hread, tofromReadStream, if_pos rfl, hline, ok_bind, tofromAdd, ok_bind,
    if_pos List.getLast?_concat]
  rfl

/-! ### Runs -/

/-- A map that was made of texts without white space and commands with names, and was not
used yet. -/
structure AddrMap.Savable (m : AddrMap) : Prop where
  entry : ∀ text r, m.entry text = some r → Token text ∧ Named r.1 ∧ r.2 = 0
  dflt : Named m.dflt

theorem AddrMap.savable_init : AddrMap.init.Savable :=
  ⟨fun _ _ h => (by cases h), Or.inl rfl⟩

/-- A packet of the control program keeps it so. -/
theorem AddrMap.Savable.packet {m : AddrMap} (h : m.Savable) {text : List UInt8}
    (htext : Token text) {cmd : ℤ} (hcmd : Named cmd) :
    (m.apply (.packet text cmd)).Savable := by
  rw [AddrMap.apply]
  by_cases hword : IsDefault text
  · rw [dif_pos hword]
    by_cases hremove : cmd = Ift.remove
    · rw [if_pos hremove]
      exact h
    · rw [if_neg hremove]
      exact ⟨h.entry, hcmd⟩
  · rw [dif_neg hword]
    refine ⟨fun text' r hr => ?_, h.dflt⟩
    change Function.update m.entry text _ text' = some r at hr
    by_cases htext' : text' = text
    · rw [htext', Function.update_self] at hr
      by_cases hremove : cmd = Ift.remove
      · rw [if_pos hremove] at hr
        cases hr
      · rw [if_neg hremove] at hr
        cases hr
        exact ⟨htext' ▸ htext, hcmd, rfl⟩
    · rw [Function.update_of_ne htext'] at hr
      exact h.entry text' r hr

/-- The list of such a map can be saved. -/
theorem Implements.savable {l : AddrList} {m : AddrMap} (h : Implements l m)
    (hm : m.Savable) : l.Savable ∧ ∀ e ∈ l.entries, e.count = 0 := by
  have hentry : ∀ e ∈ l.entries, m.entry e.text = some e.value :=
    fun e he => (h.represents.mem_iff e).mp he
  have hall : ∀ e ∈ l.entries, Token e.text ∧ Named e.cmd ∧ e.count = 0 :=
    fun e he => hm.entry e.text e.value (hentry e he)
  refine ⟨⟨h.ok, fun e he => ⟨(hall e he).1, fun hword => ?_, (hall e he).2.1⟩,
    h.dflt ▸ hm.dflt⟩, fun e he => (hall e he).2.2⟩
  have hnone := m.entry_of_isDefault e.text hword
  rw [hentry e he] at hnone
  cases hnone

/-- A command that `gld-mcp` sends for a word of its command line. -/
def AddrAction.TokenCommand : AddrAction → Prop
  | .load _ _ => False
  | .command _ req _ => 0 ∈ req.packet.drop 14 ∧
      Token ((req.packet.drop 14).takeWhile (· ≠ 0)) ∧ Named (ntohs req.packet 10)

theorem AddrAction.TokenCommand.wellFormed {a : AddrAction} (h : a.TokenCommand)
    (cgi : CgiLib) : a.WellFormed cgi := by
  cases a with
  | load name file => exact h.elim
  | command name req canReport => exact h.1

/-- The maps that such commands make. -/
theorem savable_foldl (cgi : CgiLib) {maps : ListName → AddrMap}
    (h : ∀ name, (maps name).Savable) {actions : List AddrAction}
    (hactions : ∀ a ∈ actions, a.TokenCommand) (name : ListName) :
    (actions.foldl (AddrAction.applyTo cgi) maps name).Savable := by
  induction actions generalizing maps with
  | nil => exact h name
  | cons a actions ih =>
      obtain ⟨ha, hrest⟩ := List.forall_mem_cons.mp hactions
      refine ih (fun name => ?_) hrest
      cases a with
      | load name file => exact ha.elim
      | command name' req canReport =>
          obtain ⟨-, htext, hcmd⟩ := ha
          rw [AddrAction.applyTo]
          by_cases hname : name = (AddrAction.command name' req canReport).name
          · rw [hname, Function.update_self]
            exact (h name').packet htext hcmd
          · rw [Function.update_of_ne hname]
            exact h name

/-- **A saved list is read back.** After any commands of the control program with texts
without white space and with commands that have names, each of the four lists is saved to a
file from which a server that has just started reads the same entries, in the same order,
and the same default. -/
theorem run_dump_reload {cgi : CgiLib} (hcgi : cgi.Behaves) (cfg cfg' : Config)
    (starttime starttime' : ℤ) {actions : List AddrAction}
    (hactions : ∀ a ∈ actions, a.TokenCommand) :
    ∃ srv outs,
      run (actionStep cgi cfg) (Server.init cfg starttime) (actions.map AddrAction.action) =
        .ok (srv, outs) ∧
      ∀ name, ∃ srv',
        tofromRead cgi cfg'.ndebug (Server.init cfg' starttime') name
          (getlines 10 (srv.dumpStream name)) = .ok srv' ∧
        (srv'.list name).entries = (srv.list name).entries ∧
        (srv'.list name).dflt = (srv.list name).dflt ∧
        (∀ e ∈ (srv'.list name).entries, e.count = 0) ∧ (srv'.list name).dfltc = 0 ∧
        (texts (srv'.list name).entries).Pairwise fun a b => strcmp a b = .lt := by
  obtain ⟨srv, outs, hrun, hsrv⟩ := run_implements cgi cfg (implements_init cfg starttime)
    fun a ha => (hactions a ha).wellFormed cgi
  refine ⟨srv, outs, hrun, fun name => ?_⟩
  have hsavable := savable_foldl cgi (fun _ => AddrMap.savable_init) hactions name
  obtain ⟨hlist, hunused⟩ := (hsrv name).savable hsavable
  obtain ⟨l', hread, hok, hentries, hdflt, hdfltc⟩ :=
    tofromReadStream_dump hcgi cfg'.ndebug hlist
  have hsame : l'.entries = (srv.list name).entries := by
    have hid : ∀ e ∈ (srv.list name).entries, e.unused = id e := by
      intro e he
      rw [EDomain.unused, ← hunused e he, id]
    rw [hentries, List.map_congr_left hid, List.map_id]
  have hinit : (Server.init cfg' starttime').list name = AddrList.init := by
    cases name <;> rfl
  refine ⟨(Server.init cfg' starttime').setList l' name, ?_, ?_⟩
  · rw [tofromRead, hinit, dumpStream_list, hread]
    rfl
  · rw [list_setList, Function.update_self]
    exact ⟨hsame, hdflt, hsame ▸ hunused, hdfltc, increasing_of_sorted hok.sorted⟩

/-- A recipient that is accepted, and a sender that is removed though it is not there. -/
theorem run_dump_reload_recipient :
    ∃ srv outs,
      run (actionStep stdCgi (Config.default false)) (Server.init (Config.default false) 0)
        ([.command .toL (tofromRequest 1 (ascii "a" ++ [0])) true,
          .command .fromL (tofromRequest 3 (ascii "a" ++ [0])) true].map AddrAction.action) =
        .ok (srv, outs) ∧
      ∀ name, ∃ srv',
        tofromRead stdCgi false (Server.init (Config.default false) 0) name
          (getlines 10 (srv.dumpStream name)) = .ok srv' ∧
        (srv'.list name).entries = (srv.list name).entries ∧
        (srv'.list name).dflt = (srv.list name).dflt ∧
        (∀ e ∈ (srv'.list name).entries, e.count = 0) ∧ (srv'.list name).dfltc = 0 ∧
        (texts (srv'.list name).entries).Pairwise fun a b => strcmp a b = .lt := by
  refine run_dump_reload stdCgi_behaves (Config.default false) (Config.default false) 0 0 ?_
  rw [List.forall_mem_cons, List.forall_mem_singleton]
  have htoken : Token (((tofromRequest 1 (ascii "a" ++ [0])).packet.drop 14).takeWhile
      (· ≠ 0)) := Token.of_all (by decide) (by decide)
  constructor
  · exact ⟨by decide, htoken, Or.inr (Or.inl rfl)⟩
  · exact ⟨by decide, htoken, Or.inr (Or.inr (Or.inr (Or.inl rfl)))⟩

end XGrey
