import LedServer.CronTicks
import LedServer.LoopTimers

set_option autoImplicit false

/-!
# `cron_try` entry by entry

What `verify` of `at.c` calls changes the timers itself, so the loop stops at
every callback. The rest of the program is a sequence of calls of the two files.
-/
namespace LedServer.Avr
open AvrRing Machine

inductive TimerCall where
  | schedule (id : AtId) (delay : Byte) (cb : AtCallback)
  | postpone (id : AtId)
  | cancel (id : AtId)
  | enable (id : CronId) (factor : Byte) (callback : CronCallback)
  | disable (id : CronId)
deriving DecidableEq

def timerCall (t : Timers) : TimerCall → Timers
  | .schedule id delay cb => atSchedule t id delay cb
  | .postpone id => atPostpone t id
  | .cancel id => atCancel t id
  | .enable id factor callback => cronEnable t id factor callback
  | .disable id => cronDisable t id

/-- The entries `verify` has yet to look at, and the one whose function it has
called. -/
inductive VerifyAt where
  | outside
  | loop (rest : List AtId)
  | within (id : AtId) (rest : List AtId)
deriving DecidableEq

def VerifyAt.ahead : VerifyAt → List AtId
  | .outside => []
  | .loop rest => rest
  | .within _ rest => rest

structure AtCpu where
  timers : Timers
  pc : VerifyAt

def cronCalled (t : Timers) : VerifyAt :=
  if (cronPop t).2.map Prod.snd = some .atVerify then .loop AtId.all else .outside

/-- `cron_try` up to the next place where something else is called. The lines
after the call of a function are those of `at_cancel`. -/
def proceed (c : AtCpu) : AtCpu :=
  match c.pc with
  | .outside => ⟨(cronPop c.timers).1, cronCalled c.timers⟩
  | .loop [] => ⟨c.timers, .outside⟩
  | .loop (id :: rest) =>
    if c.timers.callback id = none then ⟨c.timers, .loop rest⟩
    else
      let current := c.timers.current id + 1
      ⟨{ c.timers with current := Function.update c.timers.current id current },
        if current ≥ c.timers.max id then .within id rest else .loop rest⟩
  | .within id rest => ⟨atCancel c.timers id, .loop rest⟩

inductive AtEvent where
  | tick
  | proceed
  | call (c : TimerCall)
deriving DecidableEq

/-- The ticks are counted by the main loop, which `verify` is a part of. -/
def atStep (c : AtCpu) : AtEvent → AtCpu
  | .tick => if c.pc = .outside then { c with timers := interruptFunction c.timers } else c
  | .proceed => proceed c
  | .call call => { c with timers := timerCall c.timers call }

/-! ### The calls of a function -/

/-- What happens to the timers is a sequence of calls. -/
def Calls (t t' : Timers) : Prop := ∃ cs : List TimerCall, cs.foldl timerCall t = t'

namespace Calls

variable {t t₁ t' : Timers}

theorem refl (t : Timers) : Calls t t := ⟨[], rfl⟩

theorem one (t : Timers) (c : TimerCall) : Calls t (timerCall t c) := ⟨[c], rfl⟩

theorem trans (h : Calls t t₁) (h' : Calls t₁ t') : Calls t t' := by
  obtain ⟨cs, rfl⟩ := h
  obtain ⟨cs', rfl⟩ := h'
  exact ⟨cs ++ cs', List.foldl_append⟩

theorem of_eq (h : t' = t) : Calls t t' := ⟨[], h.symm⟩

end Calls

theorem calls_ite {p : Prop} [Decidable p] {t : Timers} {a b : State} (ha : Calls t a.timers)
    (hb : Calls t b.timers) : Calls t (if p then a else b).timers := by
  split
  · exact ha
  · exact hb

theorem calls_modeSet (s : State) (m : Mode) : Calls s.timers (modeSet s m).timers := by
  by_cases hm : s.currentMode = m
  · unfold modeSet
    rw [if_pos hm]
    exact .refl _
  · rw [modeSet_timers hm]
    have hquiet : Calls s.timers (cronDisable (cronDisable s.timers .idHeartbeat) .idFlush) :=
      (Calls.one s.timers (.disable .idHeartbeat)).trans (.one _ (.disable .idFlush))
    dsimp only
    split
    · exact hquiet.trans ((Calls.one _ (.enable .idFlush slaveDelay .flushShiftDisplay)).trans
        (.one _ (.enable .idHeartbeat hbDelay .heartbeatVerify)))
    · exact hquiet

theorem send0_timers (s : State) (msgId : Byte) : (sendMessage0 s msgId).timers = s.timers := by
  unfold sendMessage0
  split <;> rfl

theorem send1_timers (s : State) (msgId a : Byte) : (sendMessage1 s msgId a).timers = s.timers := by
  unfold sendMessage1
  split <;> rfl

theorem send2_timers (s : State) (msgId a b : Byte) :
    (sendMessage2 s msgId a b).timers = s.timers := by
  unfold sendMessage2
  split <;> rfl

theorem send3_timers (s : State) (a b c : Byte) : (sendMessage3 s a b c).timers = s.timers := by
  unfold sendMessage3
  split <;> rfl

theorem calls_setState (s : State) (new : MenuState) : Calls s.timers (setState s new).timers := by
  unfold setState
  refine calls_ite (.refl _) ?_
  dsimp only
  refine calls_ite ?_ (calls_ite ?_ (.refl _))
  · refine Calls.trans ?_ (calls_modeSet _ .menu)
    exact .of_eq (send0_timers s _)
  · refine Calls.trans ?_ (calls_modeSet _ .radio)
    exact .of_eq (send0_timers _ _)

theorem calls_stopAction (s : State) (param : Byte) :
    Calls s.timers (stopAction s param).timers :=
  stopAction_cases (P := fun a => Calls s.timers a.timers) s (.refl _) (fun _ => .refl _)
    (fun _ _ _ => .of_eq (send3_timers s _ _ _)) (fun _ => .of_eq (send1_timers s _ _))
    (.of_eq (send0_timers s _)) (.one _ (.schedule .boot bootHoldTime .releaseWire)) param

theorem calls_stop (s : State) : Calls s.timers (stop s).timers := by
  have close : ∀ s : State, Calls s.timers (reset (sendMessage0 (modeSet
      { s with flush := flushShiftDrainStop s.flush } s.menu.backupMode) msgIdResume)).timers := by
    intro s
    have hmode := calls_modeSet { s with flush := flushShiftDrainStop s.flush } s.menu.backupMode
    exact hmode.trans (.of_eq (send0_timers _ msgIdResume))
  have htag : Calls s.timers (if s.menu.state = .tag then setState s .value else s).timers :=
    calls_ite (calls_setState s .value) (.refl _)
  exact htag.trans ((calls_stopAction _ _).trans (close _))

theorem calls_runAtCallback (s : State) (cb : AtCallback) :
    Calls s.timers (runAtCallback s cb).timers := by
  cases cb with
  | releaseWire => exact .refl _
  | stop => exact calls_stop s
  | tagRequest =>
    change Calls _ (tagRequest s).timers
    unfold tagRequest
    refine calls_ite (.refl _) (calls_ite (.refl _) ?_)
    dsimp only
    exact calls_ite (.refl _) (.of_eq (send2_timers _ _ _ _))
  | misconfirm => exact .refl _

theorem calls_heartbeatVerify (s : State) : Calls s.timers (heartbeatVerify s).timers := by
  have hreport : ∀ (s : State) cb, Calls s.timers (runHeartbeatCallback s cb).timers := by
    intro s cb
    match cb with
    | none => exact .refl _
    | some .switchToWatch => exact calls_modeSet s .watch
    | some .spiInterruptStart => exact .refl _
  unfold heartbeatVerify
  refine calls_ite ?_ (calls_ite ?_ (.refl _))
  · refine (Calls.one s.timers (.disable .idHeartbeat)).trans ?_
    exact hreport (heartbeatCancel { s with heartbeat :=
      { s.heartbeat with currentMisses := s.heartbeat.currentMisses + 1 } }) _
  · exact hreport { s with heartbeat :=
      { s.heartbeat with currentMisses := s.heartbeat.currentMisses + 1 } } _

/-! ### `cron_try` is executed -/

/-- Some steps and calls, no tick among them. -/
def Executes (c c' : AtCpu) : Prop := ∃ es, AtEvent.tick ∉ es ∧ run atStep c es = c'

namespace Executes

variable {c c₁ c' : AtCpu}

theorem refl (c : AtCpu) : Executes c c := ⟨[], List.not_mem_nil, rfl⟩

theorem step (c : AtCpu) : Executes c (proceed c) := ⟨[.proceed], by simp, rfl⟩

theorem trans (h : Executes c c₁) (h' : Executes c₁ c') : Executes c c' := by
  obtain ⟨es, hes, rfl⟩ := h
  obtain ⟨ds, hds, rfl⟩ := h'
  refine ⟨es ++ ds, fun hmem => ?_, run_append atStep c es ds⟩
  exact (List.mem_append.mp hmem).elim hes hds

theorem calls {t t' : Timers} (h : Calls t t') (pc : VerifyAt) : Executes ⟨t, pc⟩ ⟨t', pc⟩ := by
  obtain ⟨cs, rfl⟩ := h
  refine ⟨cs.map .call, by simp, ?_⟩
  induction cs generalizing t with
  | nil => rfl
  | cons c cs ih => exact ih

end Executes

theorem executes_atVerifyEntry (s : State) (id : AtId) (rest : List AtId) :
    Executes ⟨s.timers, .loop (id :: rest)⟩ ⟨(atVerifyEntry s id).timers, .loop rest⟩ := by
  refine (Executes.step _).trans ?_
  unfold proceed atVerifyEntry
  dsimp only
  by_cases hnone : s.timers.callback id = none
  · rw [if_pos hnone, if_pos hnone]
    exact .refl _
  · rw [if_neg hnone, if_neg hnone]
    have hcount : Function.update s.timers.current id (s.timers.current id + 1) id =
        s.timers.current id + 1 := Function.update_self _ _ _
    let counted : State := { s with timers := { s.timers with
      current := Function.update s.timers.current id (s.timers.current id + 1) } }
    by_cases hdue : s.timers.current id + 1 ≥ s.timers.max id
    · obtain ⟨cb, hcb⟩ := Option.ne_none_iff_exists'.mp hnone
      have hexpire : atExpire counted id = _ := atExpire_some hcb
      rw [if_pos hdue, if_pos (hcount.symm ▸ hdue), hexpire]
      exact (Executes.calls (calls_runAtCallback counted cb) _).trans (.step _)
    · rw [if_neg hdue, if_neg fun h => hdue (hcount ▸ h)]
      exact .refl _

theorem executes_atVerify (s : State) (ids : List AtId) :
    Executes ⟨s.timers, .loop ids⟩ ⟨(ids.foldl atVerifyEntry s).timers, .outside⟩ := by
  induction ids generalizing s with
  | nil => exact .step _
  | cons id ids ih => exact (executes_atVerifyEntry s id ids).trans (ih _)

/-- `cron_try` of the main loop is such an execution. -/
theorem executes_cronTry (s : State) :
    Executes ⟨s.timers, .outside⟩ ⟨(cronTry s).timers, .outside⟩ := by
  refine (Executes.step _).trans ?_
  rw [cronTry_eq]
  unfold proceed cronCalled
  dsimp only
  rcases cronPop s.timers with ⟨t, _ | ⟨id, callback⟩⟩
  · exact .refl _
  · cases callback with
    | atVerify => exact executes_atVerify { s with timers := t } AtId.all
    | flushShiftDisplay => exact .refl _
    | heartbeatVerify => exact .calls (calls_heartbeatVerify { s with timers := t }) _

end LedServer.Avr
