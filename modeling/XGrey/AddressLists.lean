import Mathlib.Data.Set.Finite.Basic
import XGrey.Lib.KeyedArray
import XGrey.Lib.TextFile
import XGrey.Formats
import XGrey.RuleRun

/-!
# What the Address Lists Are For

An address list is a finite map from texts to commands and counts, with a default for the
texts that are not in it (`AddrMap`). A line of a file adds a text that is not there yet; a
packet of the control program sets, overwrites or deletes one. Two words stand for the
default and are never texts of the map.

The arrays of the server implement these maps (`Implements`): each operation on an array
that is in order succeeds, keeps it in order and does to its map what the operation is
for.

## Main results

* `tofromAdd_implements`, `mcpTofromList_implements`: one line and one packet.
* `tofromReadStream_implements`: a file.
* `run_addressLists`: files and packets in any order, for the four lists at once.
-/

open CRuntime Lexicographic SortedSeq ArrayShift KeyedArray TextFile StepRun

namespace XGrey

/-! ### The map -/

/-- The words for the default of a list. -/
def IsDefault (text : List UInt8) : Prop := text = ascii "default" ∨ text = ascii "DEFAULT"

instance decidablePredIsDefault : DecidablePred IsDefault :=
  fun text => inferInstanceAs (Decidable (text = ascii "default" ∨ text = ascii "DEFAULT"))

/-- A finite map from texts to commands and counts, with a default and its count. -/
structure AddrMap where
  entry : List UInt8 → Option (ℤ × ℕ)
  dflt : ℤ
  dfltc : ℕ
  /-- The words for the default are not texts of the map. -/
  entry_of_isDefault : ∀ text, IsDefault text → entry text = none
  /-- The map is finite. -/
  finite : {text | entry text ≠ none}.Finite

namespace AddrMap

/-- The empty map, with `GREYLIST` for every text. -/
def init : AddrMap where
  entry := fun _ => none
  dflt := Ift.greylist
  dfltc := 0
  entry_of_isDefault := fun _ _ => rfl
  finite := by simp

/-- The map with something else at a text. -/
def put (m : AddrMap) (text : List UInt8) (h : ¬ IsDefault text) (r : Option (ℤ × ℕ)) :
    AddrMap where
  entry := Function.update m.entry text r
  dflt := m.dflt
  dfltc := m.dfltc
  entry_of_isDefault := by
    intro text' h'
    have hne : text' ≠ text := by
      rintro rfl
      exact h h'
    rw [Function.update_of_ne hne, m.entry_of_isDefault text' h']
  finite := by
    refine (m.finite.insert text).subset fun text' h' => ?_
    by_cases heq : text' = text
    · exact Set.mem_insert_iff.mpr (Or.inl heq)
    · refine Set.mem_insert_iff.mpr (Or.inr ?_)
      rwa [Set.mem_ofPred_eq, Function.update_of_ne heq] at h'

/-- The map with another default, which was not used yet. -/
def setDefault (m : AddrMap) (cmd : ℤ) : AddrMap := { m with dflt := cmd, dfltc := 0 }

end AddrMap

/-- A change of an address list. -/
inductive AddrEdit
  /-- a line of its file with a command and a text -/
  | line (text : List UInt8) (cmd : ℤ)
  /-- a packet with a command and a text -/
  | packet (text : List UInt8) (cmd : ℤ)

/-- **What a change is for.** -/
def AddrMap.apply (m : AddrMap) : AddrEdit → AddrMap
  | .line text cmd =>
      if h : IsDefault text then m.setDefault cmd
      else if m.entry text = none then m.put text h (some (cmd, 0))
      else m
  | .packet text cmd =>
      if h : IsDefault text then
        if cmd = Ift.remove then m else m.setDefault cmd
      else m.put text h (if cmd = Ift.remove then none else some (cmd, 0))

/-! ### The array -/

/-- What the map has for an entry of the array. -/
def EDomain.value (e : EDomain) : ℤ × ℕ := (e.cmd, e.count)

/-- An array that is in order and has the entries and the default of a map. -/
structure Implements (l : AddrList) (m : AddrMap) : Prop where
  ok : AddrListOk l
  entry : ∀ text, (findText l.entries text).map EDomain.value = m.entry text
  dflt : l.dflt = m.dflt
  dfltc : l.dfltc = m.dfltc

theorem findText_eq_lookup (array : List EDomain) :
    findText array = lookup EDomain.text array := rfl

/-- A sorted array has no text twice. -/
theorem nodup_texts {array : List EDomain} (hs : (texts array).Pairwise (· < ·)) :
    (array.map EDomain.text).Nodup := hs.imp fun h => ne_of_lt h

/-- **Insertion** at an insertion point keeps a list in order. -/
theorem AddrListOk.add {l : AddrList} (h : AddrListOk l) (ndebug : Bool) {rec : EDomain}
    {idx : ℕ} (hsplit : SplitsAt rec.text (texts l.entries) idx) :
    ∃ l', edomainAdd ndebug l rec idx = .ok l' ∧ AddrListOk l' ∧
      l'.entries = insertAt l.entries idx rec ∧ l'.dflt = l.dflt ∧ l'.dfltc = l.dfltc := by
  have hlen := h.length_le
  have hidx : idx ≤ l.entries.length := by simpa [texts] using hsplit.le_length
  refine ⟨_, edomainAdd_eq hlen rec hidx, ⟨?_, ?_, h.length_cmdcnt⟩, rfl, rfl, rfl⟩
  · rw [texts, map_insertAt]
    exact hsplit.pairwise_insert h.sorted
  · dsimp only
    rw [length_insertAt, edDelta]
    split_ifs <;> omega

/-- Deletion keeps it in order. -/
theorem AddrListOk.deleteAt {l : AddrList} (h : AddrListOk l) (i : ℕ) :
    AddrListOk { l with entries := ArrayShift.deleteAt l.entries i } := by
  have hsub := deleteAt_sublist l.entries i
  exact ⟨h.sorted.sublist (hsub.map EDomain.text), hsub.length_le.trans h.length_le,
    h.length_cmdcnt⟩

/-- So does another entry with the same text. -/
theorem AddrListOk.set {l : AddrList} (h : AddrListOk l) {i : ℕ} (hi : i < l.entries.length)
    {rec : EDomain} (hrec : rec.text = l.entries[i].text) :
    AddrListOk { l with entries := l.entries.set i rec } := by
  have hsame : (l.entries.map EDomain.text).set i rec.text = l.entries.map EDomain.text := by
    rw [hrec, ← List.getElem_map EDomain.text (h := by simpa using hi), List.set_getElem_self]
  refine ⟨?_, ?_, h.length_cmdcnt⟩
  · rw [texts, List.map_set, hsame]
    exact h.sorted
  · rw [List.length_set]
    exact h.length_le

namespace Implements

variable {l : AddrList} {m : AddrMap}

theorem init : Implements AddrList.init AddrMap.init :=
  ⟨addrListOk_init, fun _ => rfl, rfl, rfl⟩

/-- Another default. -/
theorem setDefault (h : Implements l m) (cmd : ℤ) :
    Implements { l with dflt := cmd, dfltc := 0 } (m.setDefault cmd) :=
  ⟨⟨h.ok.sorted, h.ok.length_le, h.ok.length_cmdcnt⟩, h.entry, rfl, rfl⟩

/-- Another array for a map that differs at one text. -/
theorem put (h : Implements l m) {text : List UInt8} (htext : ¬ IsDefault text)
    {r : Option EDomain} {l' : AddrList} (hok : AddrListOk l')
    (harray : findText l'.entries = Function.update (findText l.entries) text r)
    (hdflt : l'.dflt = l.dflt) (hdfltc : l'.dfltc = l.dfltc) :
    Implements l' (m.put text htext (r.map EDomain.value)) := by
  refine ⟨hok, fun text' => ?_, hdflt.trans h.dflt, hdfltc.trans h.dfltc⟩
  change (findText l'.entries text').map EDomain.value =
    Function.update m.entry text (r.map EDomain.value) text'
  rw [harray]
  by_cases htext' : text' = text
  · rw [htext', Function.update_self, Function.update_self]
  · rw [Function.update_of_ne htext', Function.update_of_ne htext', h.entry]

/-- **Insertion** of a text that the search has not found. -/
theorem add (h : Implements l m) {text : List UInt8} (htext : ¬ IsDefault text) {idx : ℕ}
    (hsplit : SplitsAt text (texts l.entries) idx) (ndebug : Bool) (cmd : ℤ) :
    ∃ l', edomainAdd ndebug l { text := text, count := 0, cmd := cmd } idx = .ok l' ∧
      Implements l' (m.put text htext (some (cmd, 0))) := by
  obtain ⟨l', hadd, hok, hentries, hdflt, hdfltc⟩ :=
    @AddrListOk.add l h.ok ndebug { text := text, count := 0, cmd := cmd } idx hsplit
  refine ⟨l', hadd, h.put htext (r := some { text := text, count := 0, cmd := cmd }) hok ?_
    hdflt hdfltc⟩
  rw [hentries]
  exact lookup_insertAt (nodup_texts h.ok.sorted) hsplit.notMem idx

end Implements

/-- **A line** of a file. -/
theorem tofromAdd_implements {l : AddrList} {m : AddrMap} (h : Implements l m) (ndebug : Bool)
    {text : List UInt8} {cmd : ℤ} {line : TofromLine}
    (hline : line = if IsDefault text then .dflt cmd else .rule text cmd) :
    ∃ l', tofromAdd ndebug l line = .ok l' ∧ Implements l' (m.apply (.line text cmd)) := by
  rw [hline, AddrMap.apply]
  by_cases htext : IsDefault text
  · rw [if_pos htext, dif_pos htext]
    exact ⟨_, rfl, h.setDefault cmd⟩
  rw [if_neg htext, dif_neg htext, tofromAdd, ← h.entry, findText_eq h.ok.sorted]
  rcases edomainSearch_spec h.ok.sorted text with
    ⟨i, hi, hsearch, -⟩ | ⟨idx, hsearch, hsplit⟩
  · rw [hsearch, Option.bind_some, List.getElem?_eq_getElem hi, if_neg (by simp)]
    exact ⟨l, rfl, h⟩
  · rw [hsearch, Option.bind_none, Option.map_none, if_pos rfl]
    exact h.add htext hsplit ndebug cmd

/-- **A packet** of the control program. -/
theorem mcpTofromList_implements {l : AddrList} {m : AddrMap} (h : Implements l m)
    (ndebug : Bool) (text : List UInt8) (cmd : ℤ) :
    ∃ l', mcpTofromList ndebug l text cmd = .ok l' ∧
      Implements l' (m.apply (.packet text cmd)) := by
  rw [mcpTofromList, AddrMap.apply]
  by_cases htext : IsDefault text
  · have hword : text = ascii "default" ∨ text = ascii "DEFAULT" := htext
    rw [if_pos hword, dif_pos htext]
    by_cases hcmd : cmd = Ift.remove
    · rw [if_neg (not_not.mpr hcmd), if_pos hcmd]
      exact ⟨l, rfl, h⟩
    · rw [if_pos hcmd, if_neg hcmd]
      exact ⟨_, rfl, h.setDefault cmd⟩
  have hword : ¬ (text = ascii "default" ∨ text = ascii "DEFAULT") := htext
  rw [if_neg hword, dif_neg htext]
  have hnodup := nodup_texts h.ok.sorted
  rcases edomainSearch_spec h.ok.sorted text with
    ⟨i, hi, hsearch, rfl⟩ | ⟨idx, hsearch, hsplit⟩
  · rw [hsearch]
    dsimp only
    by_cases hcmd : cmd = Ift.remove
    · rw [if_pos hcmd, if_pos hcmd, edomainRemove_eq hi]
      exact ⟨_, rfl, h.put htext (r := none) (h.ok.deleteAt i) (lookup_deleteAt hnodup hi) rfl
        rfl⟩
    · rw [if_neg hcmd, if_neg hcmd]
      have hget : l.entries.getD i default = l.entries[i] := by simp [hi]
      rw [hget]
      exact ⟨_, rfl, h.put htext
        (r := some { text := l.entries[i].text, count := 0, cmd := cmd }) (h.ok.set hi rfl)
        (lookup_set hnodup hi rfl) rfl rfl⟩
  · rw [hsearch]
    dsimp only
    by_cases hcmd : cmd = Ift.remove
    · rw [if_neg (not_not.mpr hcmd), if_pos hcmd]
      refine ⟨l, rfl, h.put htext (r := none) h.ok ?_ rfl rfl⟩
      have hnone : findText l.entries text = none := lookup_eq_none_iff.mpr hsplit.notMem
      rw [← hnone, Function.update_eq_self]
    · rw [if_pos hcmd, if_neg hcmd]
      exact h.add htext hsplit ndebug cmd

/-! ### Files -/

/-- What a line of a file changes, when it is a rule or sets the default. -/
def lineEdit (cgi : CgiLib) (linebuff : List UInt8) : Option AddrEdit :=
  match tofromLine cgi linebuff with
  | .ok (.rule text cmd) => some (.line text cmd)
  | .ok (.dflt cmd) => some (.line (ascii "DEFAULT") cmd)
  | _ => none

/-- A rule of a file is not about the default. -/
theorem not_isDefault_of_tofromLine {cgi : CgiLib} {linebuff text : List UInt8} {cmd : ℤ}
    (h : tofromLine cgi linebuff = .ok (.rule text cmd)) : ¬ IsDefault text := by
  rw [tofromLine] at h
  dsimp only at h
  by_cases hempty : cgi.emptyString linebuff = true
  · rw [if_pos hempty] at h
    cases h
  rw [if_neg hempty] at h
  by_cases hcomment : (cgi.trimSpace linebuff).head? = some 35
  · rw [if_pos hcomment] at h
    cases h
  rw [if_neg hcomment] at h
  obtain ⟨fields, -, hfields⟩ := bind_eq_ok.mp h
  rcases fields with _ | ⟨count, _ | ⟨name, _ | ⟨word, rest⟩⟩⟩
  · cases hfields
  · cases hfields
  · cases hfields
  · dsimp only at hfields
    by_cases hword : word = ascii "default" ∨ word = ascii "DEFAULT"
    · rw [if_pos hword] at hfields
      cases hfields
    · rw [if_neg hword] at hfields
      cases hfields
      exact hword

/-- The line behind a change. -/
theorem tofromLine_of_lineEdit {cgi : CgiLib} {linebuff : List UInt8} {e : AddrEdit}
    (h : lineEdit cgi linebuff = some e) :
    ∃ text cmd, e = .line text cmd ∧
      tofromLine cgi linebuff = .ok (if IsDefault text then .dflt cmd else .rule text cmd) := by
  rw [lineEdit] at h
  cases hline : tofromLine cgi linebuff with
  | error err =>
      rw [hline] at h
      cases h
  | ok line =>
      rw [hline] at h
      cases line with
      | blank => cases h
      | bad => cases h
      | dflt cmd =>
          cases h
          have hword : IsDefault (ascii "DEFAULT") := Or.inr rfl
          exact ⟨ascii "DEFAULT", cmd, rfl, by rw [if_pos hword]⟩
      | rule text cmd =>
          cases h
          exact ⟨text, cmd, rfl, by rw [if_neg (not_isDefault_of_tofromLine hline)]⟩

/-- **A file** of rules and defaults: its lines change the list one after the other. -/
theorem tofromReadStream_implements (cgi : CgiLib) (ndebug : Bool) {l : AddrList}
    {m : AddrMap} (h : Implements l m) {lines : List (List UInt8)}
    (hlines : ∀ line ∈ lines, (lineEdit cgi line).isSome) (hterm : Terminated 10 lines) :
    ∃ l', tofromReadStream cgi ndebug l true lines = .ok l' ∧
      Implements l' ((lines.filterMap (lineEdit cgi)).foldl AddrMap.apply m) := by
  induction lines generalizing l m with
  | nil => exact ⟨l, rfl, h⟩
  | cons linebuff lines ih =>
      obtain ⟨hfirst, hrest⟩ := List.forall_mem_cons.mp hlines
      obtain ⟨e, he⟩ := Option.isSome_iff_exists.mp hfirst
      obtain ⟨text, cmd, rfl, hline⟩ := tofromLine_of_lineEdit he
      obtain ⟨l', hadd, hl'⟩ := @tofromAdd_implements l m h ndebug text cmd _ rfl
      rw [tofromReadStream, if_pos rfl, hline, ok_bind, hadd, ok_bind,
        List.filterMap_cons_some he, List.foldl_cons]
      have hheld : (if IsDefault text then TofromLine.dflt cmd else .rule text cmd) ≠
          .blank := by
        split_ifs <;> exact fun h => by cases h
      rw [decide_eq_true hheld]
      by_cases hnewline : linebuff.getLast? = some 10
      · rw [if_pos hnewline]
        exact ih hl' hrest hterm.2
      · rw [if_neg hnewline]
        cases hterm.1.resolve_right hnewline
        exact ⟨l', rfl, hl'⟩

/-! ### Runs -/

/-- What changes an address list of the server. -/
inductive AddrAction
  /-- its file, which is loaded at startup -/
  | load (name : ListName) (file : List UInt8)
  /-- a packet of the control program -/
  | command (name : ListName) (req : Request) (canReport : Bool)

namespace AddrAction

/-- The list that is changed. -/
def name : AddrAction → ListName
  | load name _ => name
  | command name _ _ => name

/-- What the server does. -/
def action : AddrAction → Action
  | load name file => .tofromRead name (getlines 10 file)
  | command name req canReport => .request req canReport (some name.cmd)

/-- What is done to the list. -/
def edits (cgi : CgiLib) : AddrAction → List AddrEdit
  | load _ file => (getlines 10 file).filterMap (lineEdit cgi)
  | command _ req _ =>
      [.packet ((req.packet.drop 14).takeWhile (· ≠ 0)) (ntohs req.packet 10)]

/-- A file is made of rules and defaults, and the text of a packet is terminated. -/
def WellFormed (cgi : CgiLib) : AddrAction → Prop
  | load _ file => ∀ line ∈ getlines 10 file, (lineEdit cgi line).isSome
  | command _ req _ => 0 ∈ req.packet.drop 14

/-- The four maps after a change of one of them. -/
def applyTo (cgi : CgiLib) (maps : ListName → AddrMap) (a : AddrAction) :
    ListName → AddrMap :=
  Function.update maps a.name ((a.edits cgi).foldl AddrMap.apply (maps a.name))

end AddrAction

/-- The lists of a server after one of them was replaced. -/
theorem list_setList (srv : Server) (l : AddrList) (name : ListName) :
    (srv.setList l name).list = Function.update srv.list name l := by
  funext other
  cases name <;> cases other <;> rfl

/-- **One step** of the server changes one list, as it should. -/
theorem actionStep_implements (cgi : CgiLib) (cfg : Config) {srv : Server}
    {maps : ListName → AddrMap} (h : ∀ name, Implements (srv.list name) (maps name))
    {a : AddrAction} (ha : a.WellFormed cgi) :
    ∃ l out, actionStep cgi cfg srv a.action = .ok (srv.setList l a.name, out) ∧
      Implements l (a.applyTo cgi maps a.name) := by
  rw [AddrAction.applyTo, Function.update_self]
  cases a with
  | load name file =>
      obtain ⟨l, hread, hl⟩ := tofromReadStream_implements cgi cfg.ndebug (h name) ha
        (terminated_getlines file)
      refine ⟨l, [], ?_, hl⟩
      rw [AddrAction.action, actionStep, tofromRead, hread]
      rfl
  | command name req canReport =>
      obtain ⟨l, hlist, hl⟩ := mcpTofromList_implements (h name) cfg.ndebug
        ((req.packet.drop 14).takeWhile (· ≠ 0)) (ntohs req.packet 10)
      refine ⟨l, [req.reply name.resp 0 .none], ?_, hl⟩
      rw [AddrAction.action, actionStep, dispatch_listName, cmdMcpTofrom_eq, cstring_eq ha,
        ok_bind, hlist, ok_bind, sendReply_eq _ _ (le_refl 0)]
      rfl

/-- What a reader of an address list sees: its array as `strcmp` orders it, the map that the
array has the entries of, and what the search finds. -/
structure AddrList.Represents (l : AddrList) (m : AddrMap) : Prop where
  increasing : (texts l.entries).Pairwise fun a b => strcmp a b = .lt
  length_le : l.entries.length ≤ l.smax
  mem_iff : ∀ e : EDomain, e ∈ l.entries ↔ m.entry e.text = some e.value
  search : ∀ text,
    (edomainSearch text l.entries).1.bind (fun i => l.entries[i]?) =
      (m.entry text).map fun r => { text := text, count := r.2, cmd := r.1 }
  dflt : l.dflt = m.dflt
  dfltc : l.dfltc = m.dfltc

/-- The order of a sorted list is that of `strcmp`. -/
theorem increasing_of_sorted {array : List EDomain} (hs : (texts array).Pairwise (· < ·)) :
    (texts array).Pairwise fun a b => strcmp a b = .lt := by
  exact hs.imp fun hlt => (strcmp_compares _ _).eq_lt.mpr hlt

theorem Implements.represents {l : AddrList} {m : AddrMap} (h : Implements l m) :
    l.Represents m where
  increasing := increasing_of_sorted h.ok.sorted
  length_le := h.ok.length_le
  mem_iff := fun e => by
    rw [← h.entry, findText_eq_lookup]
    constructor
    · intro he
      rw [(lookup_eq_some_iff (nodup_texts h.ok.sorted)).mpr ⟨he, rfl⟩, Option.map_some]
    · intro he
      obtain ⟨e', he', hvalue⟩ := Option.map_eq_some_iff.mp he
      obtain ⟨hmem, htext⟩ := mem_of_lookup he'
      cases e
      cases e'
      cases htext
      cases hvalue
      exact hmem
  search := fun text => by
    rw [← findText_eq h.ok.sorted, ← h.entry]
    cases hfound : findText l.entries text with
    | none => rfl
    | some e =>
        obtain ⟨-, rfl⟩ := mem_of_lookup hfound
        rfl
  dflt := h.dflt
  dfltc := h.dfltc

/-- The server goes through every run of files and packets, and its lists implement the
maps that they make. -/
theorem run_implements (cgi : CgiLib) (cfg : Config) {srv : Server}
    {maps : ListName → AddrMap} (h : ∀ name, Implements (srv.list name) (maps name))
    {actions : List AddrAction} (hactions : ∀ a ∈ actions, a.WellFormed cgi) :
    ∃ srv' outs,
      run (actionStep cgi cfg) srv (actions.map AddrAction.action) = .ok (srv', outs) ∧
        ∀ name, Implements (srv'.list name)
          (actions.foldl (AddrAction.applyTo cgi) maps name) := by
  induction actions generalizing srv maps with
  | nil => exact ⟨srv, [], rfl, h⟩
  | cons a actions ih =>
      obtain ⟨ha, hrest⟩ := List.forall_mem_cons.mp hactions
      obtain ⟨l, out, hstep, hl⟩ := actionStep_implements cgi cfg h ha
      have hnext : ∀ name,
          Implements ((srv.setList l a.name).list name) (a.applyTo cgi maps name) := by
        intro name
        rw [list_setList]
        by_cases hname : name = a.name
        · rw [hname, Function.update_self]
          exact hl
        · rw [Function.update_of_ne hname, AddrAction.applyTo, Function.update_of_ne hname]
          exact h name
      obtain ⟨srv', outs, hrun, hsrv'⟩ := ih hnext hrest
      refine ⟨srv', out :: outs, ?_, hsrv'⟩
      rw [List.map_cons, run_cons_of_ok _ hstep, hrun]
      rfl

theorem implements_init (cfg : Config) (starttime : ℤ) (name : ListName) :
    Implements ((Server.init cfg starttime).list name) AddrMap.init := by
  cases name <;> exact Implements.init

/-- **Every run of files and packets.** The server goes through it, each of the four lists
then represents the map that its own files and packets have made, and whatever comes next
changes one list only. -/
theorem run_addressLists (cgi : CgiLib) (cfg : Config) (starttime : ℤ)
    {actions : List AddrAction} (hactions : ∀ a ∈ actions, a.WellFormed cgi) :
    ∃ srv outs,
      run (actionStep cgi cfg) (Server.init cfg starttime) (actions.map AddrAction.action) =
        .ok (srv, outs) ∧
      (∀ name, (srv.list name).Represents
        (actions.foldl (AddrAction.applyTo cgi) (fun _ => AddrMap.init) name)) ∧
      ∀ a : AddrAction, a.WellFormed cgi →
        ∃ srv' out, actionStep cgi cfg srv a.action = .ok (srv', out) ∧
          ∀ name, name ≠ a.name → srv'.list name = srv.list name := by
  obtain ⟨srv, outs, hok, hsrv⟩ :=
    run_implements cgi cfg (implements_init cfg starttime) hactions
  refine ⟨srv, outs, hok, fun name => (hsrv name).represents, fun a ha => ?_⟩
  obtain ⟨l, out, hstep, -⟩ := actionStep_implements cgi cfg hsrv ha
  refine ⟨_, out, hstep, fun name hname => ?_⟩
  rw [list_setList, Function.update_of_ne hname]

/-- A packet that brings a command and a text. -/
def tofromRequest (cmd : UInt8) (text : List UInt8) : Request where
  packet := [0, 0, 0, 0, 1, 1, 0, 0, 0, 0, 0, cmd, 0, 0] ++ text
  size := 14 + text.length
  now := 0
  clock := 0
  size_le := by
    rw [List.length_append]
    exact Nat.le_refl _

/-- A file of recipients with a text twice and a default, and a packet for the senders. -/
theorem run_addressLists_recipients :
    ∃ srv outs,
      run (actionStep stdCgi (Config.default false)) (Server.init (Config.default false) 0)
        ([.load .toL (ascii "0 ACCEPT a\n0 REJECT a\n0 REJECT DEFAULT\n"),
          .command .fromL (tofromRequest 2 (ascii "a" ++ [0])) true].map AddrAction.action) =
        .ok (srv, outs) ∧
      (∀ name, (srv.list name).Represents
        ([.load .toL (ascii "0 ACCEPT a\n0 REJECT a\n0 REJECT DEFAULT\n"),
          .command .fromL (tofromRequest 2 (ascii "a" ++ [0])) true].foldl
            (AddrAction.applyTo stdCgi) (fun _ => AddrMap.init) name)) ∧
      ∀ a : AddrAction, a.WellFormed stdCgi →
        ∃ srv' out, actionStep stdCgi (Config.default false) srv a.action = .ok (srv', out) ∧
          ∀ name, name ≠ a.name → srv'.list name = srv.list name := by
  refine run_addressLists stdCgi (Config.default false) 0 ?_
  rw [List.forall_mem_cons, List.forall_mem_singleton]
  constructor
  · have hlines : getlines 10 (ascii "0 ACCEPT a\n0 REJECT a\n0 REJECT DEFAULT\n") =
        [ascii "0 ACCEPT a\n", ascii "0 REJECT a\n", ascii "0 REJECT DEFAULT\n"] := by decide
    rw [AddrAction.WellFormed, hlines]
    decide +kernel
  · rw [AddrAction.WellFormed]
    decide

end XGrey
