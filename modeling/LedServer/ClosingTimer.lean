import LedServer.AvrPlaylist
import LedServer.LoopTimers

set_option autoImplicit false

/-!
# The timer that closes the menu

Every path of the menu that leaves or enters a state schedules `stop`, and
`at.c` clears the entry only behind it.
-/
namespace LedServer.Avr
open AvrRing Machine

/-- An open menu is waited for by `stop`, on a timer that is registered. -/
def Closing (s : State) : Prop :=
  s.menu.state ≠ .idle →
    s.timers.callback .menu = some .stop ∧ s.timers.callbackArray .idAt = some .atVerify

/-- The entry of the menu alone. -/
def Pending (s : State) : Prop := s.menu.state ≠ .idle → s.timers.callback .menu = some .stop

theorem schedule_callback (s : State) (delay : Byte) :
    (schedule s delay).timers.callback .menu = some .stop := by
  simp [schedule]

/-- The menu's state stays, or it is closed, and so does its entry. -/
theorem Pending.of_same {s s' : State} (h : Pending s)
    (hs : s'.menu.state = s.menu.state ∨ s'.menu.state = .idle)
    (hc : s'.timers.callback .menu = s.timers.callback .menu) : Pending s' := by
  intro hopen
  rw [hc]
  refine h fun hidle => hopen ?_
  rcases hs with hs | hs
  · rw [hs, hidle]
  · exact hs

theorem pending_menuHandleRotor {s : State} (h : Pending s) (id action : Byte) :
    Pending (menuHandleRotor s id action) := by
  unfold menuHandleRotor
  dsimp only
  split
  · exact h
  · split <;> exact fun _ => schedule_callback _ _

theorem pending_menuParameterValue {s : State} (h : Pending s) (parameter value min max : Byte) :
    Pending (menuParameterValue s parameter value min max).1 := by
  unfold menuParameterValue
  dsimp only
  split
  · exact h
  · exact fun _ => schedule_callback _ _

theorem setState_callback (s : State) (new : MenuState) :
    (setState s new).timers.callback = s.timers.callback := by
  have hsend : ∀ (s : State) (msgId : Byte), (sendMessage0 s msgId).timers = s.timers := by
    intro s msgId
    unfold sendMessage0
    split <;> rfl
  unfold setState
  dsimp only
  split_ifs <;> simp [hsend]

theorem pending_menuParameterName {s : State} (h : Pending s) (parameter id : Byte) :
    Pending (menuParameterName s parameter id).1 := by
  rw [menuParameterName_state]
  split
  · intro _
    rw [setState_callback]
    exact schedule_callback _ _
  · exact h

theorem modeSet_pending {s : State} (h : Pending s) (m : Mode) : Pending (modeSet s m) :=
  h.of_same (.inl (by rw [modeSet_menu])) (by rw [modeSet_callback])

theorem pending_receive {s : State} (h : Pending s) (m : Message) : Pending (receive s m) := by
  have hcase := decode_case { s with decoder := arrive s.decoder m }
  have hconfirmed : Pending (confirmed { s with decoder := arrive s.decoder m }) := h
  have hreply : ∀ (a : State) (status msgId : Byte), Pending a → Pending (reply a status msgId) :=
    fun _ _ _ ha => ha
  suffices hdecode : Pending (decode { s with decoder := arrive s.decoder m }) from hdecode
  generalize decode { s with decoder := arrive s.decoder m } = r at hcase ⊢
  cases hcase with
  | ledArray => exact hreply _ _ _ h
  | queryName => exact hreply _ _ _ (pending_menuParameterName hconfirmed _ _)
  | queryNumber => exact hreply _ _ _ (pending_menuParameterValue hconfirmed _ _ _ _)
  | idle => exact hconfirmed
  | syncClock => exact hreply _ _ _ h
  | handshake => exact modeSet_pending hconfirmed .radio
  | unknown => exact hreply _ _ _ hconfirmed

theorem stop_closed (s : State) : (stop s).menu.state = .idle := rfl

theorem runAtCallback_same (s : State) {cb : AtCallback} (h : cb ≠ .stop) :
    (runAtCallback s cb).menu = s.menu ∧
      (runAtCallback s cb).timers = s.timers := by
  cases cb with
  | releaseWire => exact ⟨rfl, rfl⟩
  | stop => exact absurd rfl h
  | tagRequest =>
    unfold runAtCallback tagRequest sendMessage2
    dsimp only
    split_ifs <;> exact ⟨rfl, rfl⟩
  | misconfirm => exact ⟨rfl, rfl⟩

/-- The entry is cleared behind its function; the menu's function closes it. -/
theorem pending_atExpire {s : State} (h : Pending s) (id : AtId) : Pending (atExpire s id) := by
  cases hcb : s.timers.callback id with
  | none =>
    have hsame : atExpire s id = s := by
      unfold atExpire
      rw [hcb]
    rw [hsame]
    exact h
  | some cb =>
    rw [atExpire_some hcb]
    by_cases hstop : cb = .stop
    · subst hstop
      exact fun hopen => absurd (stop_closed s) hopen
    · obtain ⟨hmenu, htimers⟩ := runAtCallback_same s hstop
      intro hopen
      have hopen' : s.menu.state ≠ .idle := by
        rw [← hmenu]
        exact hopen
      have hstill := h hopen'
      have hother : AtId.menu ≠ id := by
        rintro rfl
        rw [hstill] at hcb
        exact hstop (Option.some.inj hcb).symm
      dsimp only
      rw [atCancel_callback, Function.update_of_ne hother, htimers]
      exact hstill

theorem pending_atVerifyEntry {s : State} (h : Pending s) (id : AtId) :
    Pending (atVerifyEntry s id) := by
  unfold atVerifyEntry
  dsimp only
  split
  · exact h
  · split
    · have hcounted : Pending { s with timers := { s.timers with
          current := Function.update s.timers.current id (s.timers.current id + 1) } } := h
      exact pending_atExpire hcounted id
    · exact h

theorem pending_atVerify {s : State} (h : Pending s) : Pending (atVerify s) := by
  unfold atVerify
  induction AtId.all generalizing s with
  | nil => exact h
  | cons id ids ih => exact ih (pending_atVerifyEntry h id)

theorem pending_heartbeatVerify {s : State} (h : Pending s) : Pending (heartbeatVerify s) := by
  have hrun : ∀ {s : State} (cb : Option HeartbeatCallback), Pending s →
      Pending (runHeartbeatCallback s cb) := by
    intro s cb hs
    match cb with
    | none => exact hs
    | some .switchToWatch => exact modeSet_pending hs .watch
    | some .spiInterruptStart => exact hs
  unfold heartbeatVerify
  dsimp only
  split
  · refine hrun _ (h.of_same (.inl rfl) ?_)
    exact congrFun (cronDisable_callback _ _) .menu
  · split
    · exact hrun _ h
    · exact h

theorem pending_cronTry {s : State} (h : Pending s) : Pending (cronTry s) := by
  unfold cronTry
  rcases bufByteDrain s.timers.queue with ⟨queue, _ | id⟩
  · exact h
  · dsimp only
    cases CronId.ofByte id with
    | none => exact h
    | some id =>
      dsimp only
      cases s.timers.callbackArray id with
      | none => exact h
      | some cb =>
        have hqueue : Pending { s with timers := { s.timers with queue := queue } } := h
        cases cb with
        | atVerify => exact pending_atVerify hqueue
        | flushShiftDisplay => exact hqueue
        | heartbeatVerify => exact pending_heartbeatVerify hqueue

theorem pending_int3Vect {s : State} (h : Pending s) : Pending (int3Vect s) := by
  have htimers : (int3Vect s).timers = atSchedule s.timers .spi confirmHoldTime .misconfirm := rfl
  refine h.of_same (.inl rfl) ?_
  rw [htimers, atSchedule_callback]
  exact Function.update_of_ne (by decide) _ _

theorem pending_holdStep {s : State} (h : Pending s) (e : HoldEvent) : Pending (holdStep s e) := by
  cases e with
  | message m fits => exact pending_receive h m
  | exchange received => exact h
  | postponeTry => exact h
  | rotor id action => exact pending_menuHandleRotor h id action
  | expire id => exact pending_atExpire h id
  | flushTick =>
    unfold holdStep
    dsimp only
    split <;> exact h
  | heartbeatTick =>
    unfold holdStep
    dsimp only
    split
    · exact pending_heartbeatVerify h
    · exact h
  | int2 => exact h.of_same (.inl (congrArg Menu.state (twi_menu s _))) rfl
  | int3 => exact pending_int3Vect h

/-- `at_schedule` and `at_cancel` are called on other entries than the menu's. -/
def Elsewhere : LoopEvent → Prop
  | .schedule id _ _ => id ≠ .menu
  | .cancel id => id ≠ .menu
  | _ => True

instance : DecidablePred Elsewhere
  | .schedule id _ _ => inferInstanceAs (Decidable (id ≠ .menu))
  | .cancel id => inferInstanceAs (Decidable (id ≠ .menu))
  | .hold _ | .counterTry | .cronTry | .verify | .postpone _ | .twiTry | .twiVect _ _ =>
    .isTrue trivial

theorem pending_loopStep {s : State} (h : Pending s) {e : LoopEvent} (he : Elsewhere e) :
    Pending (loopStep s e) := by
  cases e with
  | hold e => exact pending_holdStep h e
  | counterTry =>
    exact h.of_same (.inl rfl) (congrFun (interruptFunction_entries s.timers).callback .menu)
  | cronTry => exact pending_cronTry h
  | verify => exact pending_atVerify h
  | schedule id delay cb =>
    refine h.of_same (.inl rfl) ?_
    simp only [loopStep, atSchedule_callback]
    exact Function.update_of_ne (Ne.symm he) _ _
  | postpone id => exact h
  | cancel id =>
    refine h.of_same (.inl rfl) ?_
    simp only [loopStep, atCancel_callback]
    exact Function.update_of_ne (Ne.symm he) _ _
  | twiTry => exact h.of_same (.inl rfl) rfl
  | twiVect twsr received => exact h.of_same (.inl rfl) rfl

/-! ### Whole runs -/

theorem Pending.closing {s : State} (h : Pending s) (hs : RadioSound s) : Closing s := by
  intro hopen
  have hstop := h hopen
  have hreg := hs.cron.table .menu (by rw [hstop]; simp)
  exact ⟨hstop, (hs.cron.entry .idAt).resolve_left hreg⟩

theorem init_idle : init.menu.state = .idle := by
  unfold init
  rw [modeSet_menu]
  rfl

/-- From power on, an open menu has its closing timer at every boundary of the
main loop. -/
theorem menu_closing (es : List LoopEvent) (h : ∀ e ∈ es, Elsewhere e) :
    Throughout loopStep Closing init es := by
  have hkeep : ∀ s e, RadioSound s ∧ Pending s → Elsewhere e →
      RadioSound (loopStep s e) ∧ Pending (loopStep s e) :=
    fun s e hs he => ⟨radioSound_loop hs.1 e, pending_loopStep hs.2 he⟩
  have hinit : RadioSound init ∧ Pending init :=
    ⟨init_radioSound, fun hopen => absurd init_idle hopen⟩
  rw [throughout_iff_start]
  intro ds hd
  obtain ⟨hs, hp⟩ := run_invariant hkeep hinit ((along_of_mem loopStep init h).take hd)
  exact hp.closing hs

/-- The volume knob opens the menu while the boot wire is held by a timer. -/
theorem menu_closing_of_volume : Throughout loopStep Closing init
    [.schedule .boot bootHoldTime .releaseWire, .hold (.rotor rotorVolume rotorClockwise),
      .counterTry, .cronTry, .cancel .boot] :=
  menu_closing _ (by decide)

end LedServer.Avr
