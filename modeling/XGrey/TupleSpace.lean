import XGrey.Bisearch
import XGrey.Tuple

/-!
# The Tuple Space

The store of the greylist daemon (`server/tuple.c`) and the parts of `server/gld.c` that
work on it. All records live in one pool that is allocated once. The array `tuplespace`
holds a pointer to every record of the pool: its first `poolnum` entries point to the
live tuples, in sorted order, the entries behind them to the records that are free.
A pointer is an index into the pool.

`tuple_expire` compacts the array in place and rebuilds its free part from the records
that carry `F_REMOVE`; `tuple_allocate` hands out the first free record and, when there
is none, sweeps and after that starts over. `typeGreylistCheckTuple` is the end of
`type_greylist`, from the label `type_greylist_check_tuple` on.
-/

open CRuntime

namespace XGrey

/-- The globals of the tuple store, with its counters. -/
structure TupleSpace where
  /-- `g_pool` -/
  pool : List Tuple
  /-- `g_tuplespace` -/
  tuplespace : List ℕ
  /-- `g_poolnum` -/
  poolnum : ℕ
  /-- `g_greylisted` -/
  greylisted : ℕ
  /-- `g_whitelisted`, an integer because it is also counted down -/
  whitelisted : ℤ
  /-- `g_greylist_expired` -/
  greylistExpired : ℕ
  /-- `g_whitelist_expired` -/
  whitelistExpired : ℕ
  /-- `g_tuples_read` -/
  tuplesRead : ℕ
  /-- `g_tuples_read_cucurrent` -/
  tuplesReadCucurrent : ℕ
  /-- `g_tuples_write` -/
  tuplesWrite : ℕ
  /-- `g_tuples_write_cucurrent` -/
  tuplesWriteCucurrent : ℕ
  /-- `g_tuples_low` -/
  tuplesLow : ℕ
  /-- `g_tuples_high` -/
  tuplesHigh : ℕ
  deriving DecidableEq

namespace TupleSpace

/-- The store as `GlobalsInit` sets it up: no tuples, entry `i` pointing to record `i`. -/
def init (cfg : Config) : TupleSpace where
  pool := List.replicate cfg.poolmax default
  tuplespace := List.range cfg.poolmax
  poolnum := 0
  greylisted := 0
  whitelisted := 0
  greylistExpired := 0
  whitelistExpired := 0
  tuplesRead := 0
  tuplesReadCucurrent := 0
  tuplesWrite := 0
  tuplesWriteCucurrent := 0
  tuplesLow := 0
  tuplesHigh := 0

/-- The record a pointer points to. -/
def deref (s : TupleSpace) (p : ℕ) : Tuple := s.pool.getD p default

/-- `g_tuplespace[i]` -/
def slot (s : TupleSpace) (i : ℕ) : ℕ := s.tuplespace.getD i 0

/-- Writing a record through a pointer. -/
def write (s : TupleSpace) (p : ℕ) (t : Tuple) : TupleSpace :=
  { s with pool := s.pool.set p t }

/-- The pointers to the live tuples. -/
def live (s : TupleSpace) : List ℕ := s.tuplespace.take s.poolnum

/-- The live tuples, in the order of the array. -/
def liveTuples (s : TupleSpace) : List Tuple := s.live.map s.deref

/-- The keys of the live tuples, in the order of the array. -/
def keys (s : TupleSpace) : List Key := s.liveTuples.map Tuple.key

/-- `g_tuples_read++; g_tuples_read_cucurrent++;` -/
def countRead (s : TupleSpace) : TupleSpace :=
  { s with
    tuplesRead := s.tuplesRead + 1
    tuplesReadCucurrent := s.tuplesReadCucurrent + 1 }

/-- `g_tuples_write++; g_tuples_write_cucurrent++;` -/
def countWrite (s : TupleSpace) : TupleSpace :=
  { s with
    tuplesWrite := s.tuplesWrite + 1
    tuplesWriteCucurrent := s.tuplesWriteCucurrent + 1 }

/-- `stored->f |= F_WHITELIST; g_whitelisted++;` -/
def setWhitelist (s : TupleSpace) (p : ℕ) : TupleSpace :=
  { s.write p ((s.deref p).setFlag fWhitelist) with whitelisted := s.whitelisted + 1 }

end TupleSpace

/-- `tuple_search`: the record with the key of the given tuple, if it is live, and the
index at which the search ended. -/
def tupleSearch (s : TupleSpace) (key : Tuple) : Option ℕ × ℕ × TupleSpace :=
  let s := s.countRead
  let item := bisearch (fun i => tupleLookIft key (s.deref (s.slot i))) s.poolnum
  (item.datum.map s.slot, item.idx, s)

/-! ### The sweep -/

/-- Whether a record has been idle for longer than its kind is kept. -/
def expired (cfg : Config) (tao : ℤ) (t : Tuple) : Bool :=
  if t.whitelisted then decide (difftime tao t.atime > cfg.timeoutWhite)
  else decide (difftime tao t.atime > cfg.timeoutGrey)

/-- The first half of the loop body of `tuple_expire`: flag an expired record. -/
def expireMark (cfg : Config) (tao : ℤ) (t : Tuple) : Tuple :=
  if expired cfg tao t then t.setFlag fRemove else t

/-- The body of the first loop of `tuple_expire`, with the reading index `i` and the
writing index `j`. -/
def expireStep (cfg : Config) (tao : ℤ) (st : TupleSpace × ℕ) (i : ℕ) : TupleSpace × ℕ :=
  let (s, j) := st
  let p := s.slot i
  let t := expireMark cfg tao (s.deref p)
  let s := s.write p t
  if t.removed then
    if t.whitelisted then
      ({ s with whitelisted := s.whitelisted - 1, whitelistExpired := s.whitelistExpired + 1 }, j)
    else
      ({ s with greylistExpired := s.greylistExpired + 1 }, j)
  else
    ({ s with tuplespace := s.tuplespace.set j p }, j + 1)

/-- The body of the second loop of `tuple_expire`, which collects the flagged records of
the pool behind the live ones. -/
def reclaimStep (cfg : Config) (st : TupleSpace × ℕ) (i : ℕ) : Exec (TupleSpace × ℕ) :=
  let (s, j) := st
  if (s.deref i).removed then
    if j < s.tuplespace.length then do
      let s := { s with tuplespace := s.tuplespace.set j i }
      cassert cfg.ndebug (j + 1 < cfg.poolmax)
      .ok (s, j + 1)
    else
      .error .memory
  else
    .ok (s, j)

/-- `tuple_expire`. -/
def tupleExpire (cfg : Config) (s : TupleSpace) (tao : ℤ) : Exec TupleSpace := do
  let s := s.countWrite
  let (s, j) := (List.range s.poolnum).foldl (expireStep cfg tao) (s, 0)
  let s := { s with poolnum := j }
  let (s, _) ← (List.range cfg.poolmax).foldlM (reclaimStep cfg) (s, j)
  let s := if s.poolnum < s.tuplesLow then { s with tuplesLow := s.poolnum } else s
  let s := if s.poolnum > s.tuplesHigh then { s with tuplesHigh := s.poolnum } else s
  .ok s

/-! ### Allocation and insertion -/

/-- `tuple_allocate`, where `clock` is what `time(NULL)` returns to it. -/
def tupleAllocate (cfg : Config) (s : TupleSpace) (clock : ℤ) : Exec (ℕ × TupleSpace) := do
  cassert cfg.ndebug (s.poolnum ≤ cfg.poolmax)
  if s.poolnum = cfg.poolmax then
    let s ← tupleExpire cfg s clock
    if s.poolnum = cfg.poolmax then
      let s := { s with
        poolnum := 0
        tuplesLow := 0
        tuplespace := List.range cfg.poolmax }
      .ok (s.slot s.poolnum, s)
    else
      .ok (s.slot s.poolnum, s)
  else
    .ok (s.slot s.poolnum, s)

/-- `tuple_add`: insert a pointer at an index of the live part. An index beyond it makes
the length of the block move wrap around. -/
def tupleAdd (cfg : Config) (s : TupleSpace) (rec index : ℕ) : Exec TupleSpace := do
  cassert cfg.ndebug (s.poolnum < cfg.poolmax)
  cassert cfg.ndebug (index ≤ s.poolnum)
  cassert cfg.ndebug (rec < cfg.poolmax)
  cassert cfg.ndebug ((s.deref rec).pad = decafbad)
  let s := s.countWrite
  if index ≤ s.poolnum then
    let tuplespace ← memmove s.tuplespace (index + 1) index (s.poolnum - index)
    let s := { s with tuplespace := tuplespace.set index rec, poolnum := s.poolnum + 1 }
    if s.poolnum > s.tuplesHigh then .ok { s with tuplesHigh := s.poolnum } else .ok s
  else
    .error .wrap

/-! ### The operations of the daemon -/

/-- `type_greylist` from the label `type_greylist_check_tuple` on: look up the tuple, add
it or update it, and decide. The result is the response and the reason of the reply. -/
def typeGreylistCheckTuple (cfg : Config) (s : TupleSpace) (tuple : Tuple) (cmd : Cmd)
    (now clock : ℤ) : Exec ((ℤ × Reason) × TupleSpace) := do
  let (stored, idx, s) := tupleSearch s tuple
  match stored with
  | none =>
      let (stored, s) ← tupleAllocate cfg s clock
      let idx := if s.poolnum = 0 then 0 else idx
      let s := s.write stored tuple
      let s ← tupleAdd cfg s stored idx
      let s := { s with greylisted := s.greylisted + 1 }
      if cmd = .whitelist then
        .ok ((Ift.accept, .whitelist), s.setWhitelist stored)
      else
        .ok ((Ift.greylist, .greylist), s)
  | some stored =>
      let s := s.write stored ((s.deref stored).touch now)
      let s :=
        if cmd = .whitelist then
          if (s.deref stored).whitelisted then s else s.setWhitelist stored
        else s
      if (s.deref stored).whitelisted then
        .ok ((Ift.accept, .whitelist), s)
      else if difftime now (s.deref stored).ctime < cfg.timeoutEmbargo then
        .ok ((Ift.greylist, .greylist), s)
      else
        let s := if (s.deref stored).whitelisted then s else s.setWhitelist stored
        .ok ((Ift.accept, .whitelist), s)

/-- What `type_tuple_remove` does to the store: flag the tuple if it is there. -/
def tupleRemove (s : TupleSpace) (tuple : Tuple) : TupleSpace :=
  let (stored, _, s) := tupleSearch s tuple
  match stored with
  | none => s
  | some stored => s.write stored ((s.deref stored).setFlag fRemove)

/-- What `whitelist_load` does to the store with the tuple of one line, `now` being the
time at which the loading began. -/
def whitelistLoadTuple (cfg : Config) (s : TupleSpace) (tuple : Tuple) (now clock : ℤ) :
    Exec TupleSpace := do
  let (stored, idx, s) := tupleSearch s tuple
  match stored with
  | none =>
      let (stored, s) ← tupleAllocate cfg s clock
      let s := s.write stored tuple
      let s := s.write stored ((s.deref stored).setFlag fWhitelist)
      let s ← tupleAdd cfg s stored idx
      .ok { s with whitelisted := s.whitelisted + 1 }
  | some stored =>
      let s := s.write stored ((s.deref stored).touch now)
      .ok (if (s.deref stored).whitelisted then s else s.setWhitelist stored)

end XGrey
