import LedServer.CronTable

set_option autoImplicit false

/-!
# The main loop and its timers

What the parts of the loop do to the registrations, and what follows for every
run: the flush and the heartbeat are registered in radio mode only, and an open
menu has its closing timer.
-/
namespace LedServer.Avr
open AvrRing Machine

/-- What comes between two boundaries of the main loop; the calls of `at.c` are
anybody's, with any function. -/
inductive LoopEvent where
  | hold (e : HoldEvent)
  | counterTry
  | cronTry
  | verify
  | schedule (id : AtId) (delay : Byte) (cb : AtCallback)
  | postpone (id : AtId)
  | cancel (id : AtId)
  | twiTry
  | twiVect (twsr received : Byte)

def loopStep (s : State) : LoopEvent → State
  | .hold e => holdStep s e
  | .counterTry => { s with timers := interruptFunction s.timers }
  | .cronTry => cronTry s
  | .verify => atVerify s
  | .schedule id delay cb => { s with timers := atSchedule s.timers id delay cb }
  | .postpone id => { s with timers := atPostpone s.timers id }
  | .cancel id => { s with timers := atCancel s.timers id }
  | .twiTry => { s with twi := (AvrTwi.twiTry s.twi).1 }
  | .twiVect twsr received => { s with twi := AvrTwi.twiVect s.twi twsr received }

/-! ### What each function comes to -/

/-- TimerSteps on the registrations, one after the other. -/
def TimerSteps (s s' : State) : Prop := Relation.ReflTransGen TimerStep s s'

namespace TimerSteps

variable {s s₁ s' : State}

theorem refl (s : State) : TimerSteps s s := Relation.ReflTransGen.refl

theorem trans (h : TimerSteps s s₁) (h' : TimerSteps s₁ s') : TimerSteps s s' :=
  Relation.ReflTransGen.trans h h'

theorem single (h : TimerStep s s') : TimerSteps s s' := Relation.ReflTransGen.single h

theorem of_eq (h : registrations s' = registrations s) : TimerSteps s s' := .single (.other h)

/-- Something else is done first. -/
theorem after (h : TimerSteps s₁ s') (he : registrations s₁ = registrations s) : TimerSteps s s' :=
  (of_eq he).trans h

/-- Something else is done last. -/
theorem before (h : TimerSteps s s₁) (he : registrations s' = registrations s₁) : TimerSteps s s' :=
  h.trans (of_eq he)

theorem radioSound (h : TimerSteps s s') (hs : RadioSound s) : RadioSound s' := by
  induction h with
  | refl => exact hs
  | tail _ step ih => exact step.radioSound ih

end TimerSteps

theorem steps_ite {p : Prop} [Decidable p] {s a b : State} (ha : TimerSteps s a)
    (hb : TimerSteps s b) : TimerSteps s (if p then a else b) := by
  split
  · exact ha
  · exact hb

theorem steps_ite_fst {α : Type} {p : Prop} [Decidable p] {s : State} {a b : State × α}
    (ha : TimerSteps s a.1) (hb : TimerSteps s b.1) : TimerSteps s (if p then a else b).1 := by
  split
  · exact ha
  · exact hb

theorem steps_mode (s : State) (m : Mode) : TimerSteps s (modeSet s m) := .single (.mode s m)

theorem steps_at (s : State) (id : AtId) (delay : Byte) (cb : AtCallback) :
    TimerSteps s { s with timers := atSchedule s.timers id delay cb } :=
  .single (.schedule s id delay cb)

theorem steps_cancel (s : State) (id : AtId) :
    TimerSteps s { s with timers := atCancel s.timers id } := .single (.cancel s id)

theorem steps_send0 (s : State) (msgId : Byte) : TimerSteps s (sendMessage0 s msgId) := by
  unfold sendMessage0
  exact steps_ite (.of_eq rfl) (.refl s)

theorem steps_send1 (s : State) (msgId a : Byte) : TimerSteps s (sendMessage1 s msgId a) := by
  unfold sendMessage1
  exact steps_ite (.of_eq rfl) (.refl s)

theorem steps_send2 (s : State) (msgId a b : Byte) : TimerSteps s (sendMessage2 s msgId a b) := by
  unfold sendMessage2
  exact steps_ite (.of_eq rfl) (.refl s)

theorem steps_send3 (s : State) (a b c : Byte) : TimerSteps s (sendMessage3 s a b c) := by
  unfold sendMessage3
  exact steps_ite (.of_eq rfl) (.refl s)

theorem steps_twi (s : State) (t : AvrTwi.Twi) : TimerSteps s { s with twi := t } := .of_eq rfl

theorem steps_flush (s : State) (f : Flush) : TimerSteps s { s with flush := f } := .of_eq rfl

theorem steps_schedule (s : State) (delay : Byte) : TimerSteps s (schedule s delay) :=
  (steps_cancel s .menu).trans (steps_at _ .menu delay .stop)

theorem steps_querySource (s : State) : TimerSteps s (querySource s) := by
  unfold querySource
  exact steps_ite (.refl s) (steps_ite (.refl s) ((steps_send1 s _ _).before rfl))

theorem steps_setState (s : State) (new : MenuState) : TimerSteps s (setState s new) := by
  have leave : TimerSteps s (modeSet { sendMessage0 s msgIdSuspend with
      flush := flushShiftDrainStart (sendMessage0 s msgIdSuspend).flush } .menu) :=
    (steps_send0 s msgIdSuspend).trans ((steps_mode { sendMessage0 s msgIdSuspend with
      flush := flushShiftDrainStart (sendMessage0 s msgIdSuspend).flush } .menu).after rfl)
  have enter : TimerSteps s (modeSet (sendMessage0 { s with flush := flushShiftDrainStop s.flush }
      msgIdResume) .radio) :=
    TimerSteps.after ((steps_send0 { s with flush := flushShiftDrainStop s.flush } msgIdResume).trans
      (steps_mode _ .radio)) rfl
  unfold setState
  exact steps_ite (.refl s)
    ((steps_ite leave (steps_ite enter (.refl s))).before rfl)

theorem steps_start (s : State) (rotorId : Byte) : TimerSteps s (start s rotorId) := by
  let a : State := { reset s with menu := { (reset s).menu with backupMode := s.currentMode } }
  have hopen : TimerSteps s (sendMessage0 (modeSet a .menu) msgIdSuspend) :=
    TimerSteps.after ((steps_mode a .menu).trans (steps_send0 _ msgIdSuspend)) rfl
  unfold start
  exact steps_ite (.refl s) (hopen.before rfl)

theorem steps_stopAction (s : State) (param : Byte) : TimerSteps s (stopAction s param) := by
  have boot : TimerSteps s (bootPi s) := (steps_at { s with bootHeld := true } .boot _ _).after rfl
  exact stopAction_cases s (.refl s) (fun _ => .of_eq rfl) (steps_send3 s)
    (steps_send1 s msgIdPoweroff) (steps_send0 s msgIdReboot) boot param

theorem steps_stop (s : State) : TimerSteps s (stop s) := by
  have close : ∀ s : State, TimerSteps s (reset (sendMessage0 (modeSet
      { s with flush := flushShiftDrainStop s.flush } s.menu.backupMode) msgIdResume)) := by
    intro s
    have hmode : TimerSteps s (modeSet { s with flush := flushShiftDrainStop s.flush }
        s.menu.backupMode) := (steps_mode _ _).after rfl
    exact hmode.trans ((steps_send0 _ msgIdResume).trans (.of_eq rfl))
  exact (steps_ite (steps_setState s .value) (.refl s)).trans
    ((steps_stopAction _ _).trans (close _))

theorem steps_tagRequest (s : State) : TimerSteps s (tagRequest s) := by
  unfold tagRequest
  exact steps_ite (.refl s) (steps_ite (.refl s) (steps_ite (.refl s) (steps_send2 s _ _ _)))

theorem steps_scheduleTag (s : State) : TimerSteps s (scheduleTag s) := by
  unfold scheduleTag
  refine steps_ite (.refl s) (steps_ite (.refl s) ?_)
  exact ((steps_cancel s .menuTag).trans (steps_at _ .menuTag delayTag .tagRequest)).before rfl

theorem steps_turnSame (s : State) (id action : Byte) : TimerSteps s (turnSame s id action) := by
  unfold turnSame
  cases s.menu.state with
  | apply => exact .of_eq rfl
  | param => exact .of_eq rfl
  | value =>
    refine TimerSteps.trans (steps_ite ?_ (.refl s)) ((steps_scheduleTag _).after rfl)
    exact (steps_querySource _).after rfl
  | idle => exact .refl s
  | tag => exact .refl s

theorem steps_turnOther (s : State) (id action : Byte) : TimerSteps s (turnOther s id action) := by
  unfold turnOther
  cases rotorToState id with
  | apply => exact .of_eq rfl
  | param => exact .of_eq rfl
  | _ => exact (steps_querySource _).after rfl

theorem steps_menuHandleRotor (s : State) (id action : Byte) :
    TimerSteps s (menuHandleRotor s id action) := by
  unfold menuHandleRotor
  refine steps_ite (.refl s) (steps_ite ?_ ?_)
  · exact (steps_turnSame s id action).trans (steps_schedule _ _)
  · exact (steps_ite (steps_start s id) (.refl s)).trans ((steps_setState _ _).trans
      ((steps_turnOther _ _ _).trans (steps_schedule _ _)))

theorem steps_menuParameterValue (s : State) (parameter value min max : Byte) :
    TimerSteps s (menuParameterValue s parameter value min max).1 := by
  unfold menuParameterValue
  exact steps_ite_fst (.refl s) ((steps_schedule _ _).after rfl)

theorem steps_menuParameterName (s : State) (parameter id : Byte) :
    TimerSteps s (menuParameterName s parameter id).1 := by
  unfold menuParameterName
  exact steps_ite_fst (.refl s)
    (steps_ite_fst (.refl s) ((steps_schedule s _).trans (steps_setState _ _)))

theorem steps_reply (s : State) (status msgId : Byte) : TimerSteps s (reply s status msgId) :=
  .of_eq rfl

theorem steps_receive (s : State) (m : Message) : TimerSteps s (receive s m) := by
  have hcase := decode_case { s with decoder := arrive s.decoder m }
  have hdone : TimerSteps (decode { s with decoder := arrive s.decoder m }) (receive s m) :=
    .of_eq rfl
  have hconfirmed : TimerSteps s (confirmed { s with decoder := arrive s.decoder m }) := .of_eq rfl
  refine TimerSteps.trans ?_ hdone
  generalize decode { s with decoder := arrive s.decoder m } = r at hcase
  cases hcase with
  | ledArray => exact hconfirmed.trans ((steps_flush _ _).trans (steps_reply _ _ _))
  | queryName =>
    exact (hconfirmed.trans (steps_menuParameterName _ _ _)).trans (steps_reply _ _ _)
  | queryNumber =>
    exact (hconfirmed.trans (steps_menuParameterValue _ _ _ _ _)).trans (steps_reply _ _ _)
  | idle => exact hconfirmed
  | syncClock => exact (hconfirmed.trans (steps_twi _ _)).trans (steps_reply _ _ _)
  | handshake => exact hconfirmed.trans (steps_mode _ _)
  | unknown => exact hconfirmed.trans (steps_reply _ _ _)

theorem steps_runAtCallback (s : State) (cb : AtCallback) : TimerSteps s (runAtCallback s cb) := by
  cases cb with
  | releaseWire => exact .of_eq rfl
  | stop => exact steps_stop s
  | tagRequest => exact steps_tagRequest s
  | misconfirm => exact .of_eq rfl

/-- What follows the function of an entry is `at_cancel`. -/
theorem atExpire_some {s : State} {id : AtId} {cb : AtCallback}
    (h : s.timers.callback id = some cb) :
    atExpire s id = { runAtCallback s cb with
      timers := atCancel (runAtCallback s cb).timers id } := by
  unfold atExpire atCancel
  rw [h]
  dsimp only
  split_ifs <;> rfl

theorem steps_atExpire (s : State) (id : AtId) : TimerSteps s (atExpire s id) := by
  cases h : s.timers.callback id with
  | none =>
    have hsame : atExpire s id = s := by
      unfold atExpire
      rw [h]
    rw [hsame]
    exact .refl s
  | some cb =>
    rw [atExpire_some h]
    exact (steps_runAtCallback s cb).trans (steps_cancel _ id)

theorem steps_atVerifyEntry (s : State) (id : AtId) : TimerSteps s (atVerifyEntry s id) := by
  unfold atVerifyEntry
  refine steps_ite (.refl s) (steps_ite ?_ (.of_eq rfl))
  exact (steps_atExpire _ id).after rfl

theorem steps_atVerify (s : State) : TimerSteps s (atVerify s) :=
  ((steps_atVerifyEntry s _).trans (steps_atVerifyEntry _ _)).trans
    ((steps_atVerifyEntry _ _).trans (steps_atVerifyEntry _ _))

theorem steps_heartbeat (s : State) (cb : Option HeartbeatCallback) :
    TimerSteps s (runHeartbeatCallback s cb) := by
  match cb with
  | none => exact .refl s
  | some .switchToWatch => exact steps_mode s .watch
  | some .spiInterruptStart => exact .of_eq rfl

/-- `verify` of `heartbeat.c` runs only while it is registered. -/
theorem steps_heartbeatVerify {s : State} (h : s.timers.callbackArray .idHeartbeat ≠ none) :
    TimerSteps s (heartbeatVerify s) := by
  unfold heartbeatVerify
  dsimp only
  refine steps_ite ?_ (steps_ite ?_ (.of_eq rfl))
  · refine (TimerSteps.single (.lost ?_)).after rfl
    exact h
  · exact (steps_heartbeat _ _).after rfl

/-- A tick counts and queues, and registers nothing. -/
structure SameEntries (t t' : Timers) : Prop where
  callbackArray : t'.callbackArray = t.callbackArray
  callback : t'.callback = t.callback
  engaged : t'.engaged = t.engaged

theorem interruptStep_entries (t : Timers) (i : CronId) : SameEntries t (interruptStep t i) := by
  unfold interruptStep
  split
  · exact ⟨rfl, rfl, rfl⟩
  · dsimp only
    split <;> exact ⟨rfl, rfl, rfl⟩

theorem interruptFunction_entries (t : Timers) : SameEntries t (interruptFunction t) := by
  unfold interruptFunction
  induction CronId.all generalizing t with
  | nil => exact ⟨rfl, rfl, rfl⟩
  | cons i ids ih =>
    obtain ⟨ha, hc, he⟩ := ih (interruptStep t i)
    obtain ⟨ha', hc', he'⟩ := interruptStep_entries t i
    exact ⟨ha.trans ha', hc.trans hc', he.trans he'⟩

theorem steps_interruptFunction (s : State) :
    TimerSteps s { s with timers := interruptFunction s.timers } := by
  obtain ⟨ha, hc, he⟩ := interruptFunction_entries s.timers
  refine .of_eq ?_
  simp only [registrations, ha, hc, he]

theorem steps_cronTry {s : State} (h : RadioSound s) : TimerSteps s (cronTry s) := by
  unfold cronTry
  rcases bufByteDrain s.timers.queue with ⟨queue, _ | id⟩
  · exact .of_eq rfl
  · dsimp only
    cases CronId.ofByte id with
    | none => exact .of_eq rfl
    | some id =>
      dsimp only
      have hentry := h.cron.entry id
      cases hcb : s.timers.callbackArray id with
      | none => exact .of_eq rfl
      | some cb =>
        rw [hcb] at hentry
        have hown : some cb = id.own := hentry.resolve_left (by simp)
        dsimp only
        cases id with
        | idAt =>
          cases hown
          exact (steps_atVerify _).after rfl
        | idFan => cases hown
        | idFlush =>
          cases hown
          exact .of_eq rfl
        | idHeartbeat =>
          cases hown
          refine (steps_heartbeatVerify ?_).after rfl
          dsimp only
          rw [hcb]
          simp

theorem steps_int3Vect (s : State) : TimerSteps s (int3Vect s) := by
  have hat := steps_at s .spi confirmHoldTime .misconfirm
  exact hat.trans (.of_eq rfl)

theorem steps_holdStep (s : State) (e : HoldEvent) : TimerSteps s (holdStep s e) := by
  cases e with
  | message m fits => exact steps_receive s m
  | exchange received => exact .of_eq rfl
  | postponeTry => exact .of_eq rfl
  | rotor id action => exact steps_menuHandleRotor s id action
  | expire id => exact steps_atExpire s id
  | flushTick =>
    unfold holdStep
    exact steps_ite (.of_eq rfl) (.refl s)
  | heartbeatTick =>
    unfold holdStep
    dsimp only
    split
    · rename_i hreg
      exact steps_heartbeatVerify (by rw [hreg]; simp)
    · exact .refl s
  | int2 => exact steps_twi s _
  | int3 => exact steps_int3Vect s

theorem steps_loopStep {s : State} (h : RadioSound s) (e : LoopEvent) :
    TimerSteps s (loopStep s e) := by
  cases e with
  | hold e => exact steps_holdStep s e
  | counterTry => exact steps_interruptFunction s
  | cronTry => exact steps_cronTry h
  | verify => exact steps_atVerify s
  | schedule id delay cb => exact steps_at s id delay cb
  | postpone id => exact .of_eq rfl
  | cancel id => exact steps_cancel s id
  | twiTry => exact steps_twi s _
  | twiVect twsr received => exact steps_twi s _

/-! ### The mode and the timer -/

theorem radioSound_loop {s : State} (h : RadioSound s) (e : LoopEvent) :
    RadioSound (loopStep s e) := (steps_loopStep h e).radioSound h

theorem powerUp_enrolled : Enrolled powerUp.timers where
  entry _ := .inl rfl
  table _ h := absurd rfl h
  engaged := rfl

theorem init_radioSound : RadioSound init := radioSound_modeSet powerUp_enrolled (by decide)

/-- What the mode says about the two entries, and the entries about the timer. -/
structure Coordinated (s : State) : Prop where
  flush : s.currentMode = .radio ↔ s.timers.callbackArray .idFlush = some .flushShiftDisplay
  heartbeat : s.currentMode = .radio ↔
    s.timers.callbackArray .idHeartbeat = some .heartbeatVerify
  engaged : s.timers.engaged = true ↔ ∃ id, s.timers.callbackArray id ≠ none

theorem RadioSound.coordinated {s : State} (h : RadioSound s) : Coordinated s := by
  have hown : ∀ i, s.timers.callbackArray i ≠ none ↔
      s.timers.callbackArray i = i.own ∧ i.own ≠ none := by
    intro i
    constructor
    · intro hne
      have hi := (h.cron.entry i).resolve_left hne
      exact ⟨hi, hi ▸ hne⟩
    · rintro ⟨hi, hne⟩
      rw [hi]
      exact hne
  refine ⟨?_, ?_, ?_⟩
  · rw [h.radio .idFlush (.inl rfl), hown]
    simp [CronId.own]
  · rw [h.radio .idHeartbeat (.inr rfl), hown]
    simp [CronId.own]
  · rw [h.cron.engaged, isRequired_iff]

/-- At every boundary of the main loop the flush and the heartbeat are registered
exactly in radio mode, and the timer is engaged exactly for what is registered. -/
theorem loop_coordinated (es : List LoopEvent) : Throughout loopStep Coordinated init es := by
  rw [throughout_iff_start]
  intro ds _
  have hrun : RadioSound (run loopStep init ds) :=
    run_keeps (I := RadioSound) (fun _ e h => radioSound_loop h e) ds init_radioSound
  exact hrun.coordinated

end LedServer.Avr
