import LedServer.ReplyHold

set_option autoImplicit false

/-!
# Who is registered with `cron.c`

Four modules enable and disable the cron entries. Whatever the main loop does
comes to a few steps on the registrations and the mode.
-/
namespace LedServer.Avr
open Machine

/-- The one function an entry of `cron.c` is ever enabled with. -/
def CronId.own : CronId → Option CronCallback
  | .idAt => some .atVerify
  | .idFan => none
  | .idFlush => some .flushShiftDisplay
  | .idHeartbeat => some .heartbeatVerify

/-- The registrations, the table of `at.c` and whether the hardware timer runs. -/
structure Enrolled (t : Timers) : Prop where
  entry : ∀ i, t.callbackArray i = none ∨ t.callbackArray i = i.own
  table : ∀ id, t.callback id ≠ none → t.callbackArray .idAt ≠ none
  engaged : t.engaged = isRequired t

namespace Enrolled

variable {t : Timers}

theorem of_eq {t' : Timers} (h : Enrolled t) (ha : t'.callbackArray = t.callbackArray)
    (hc : t'.callback = t.callback) (he : t'.engaged = t.engaged) : Enrolled t' := by
  refine ⟨fun i => ?_, fun id => ?_, ?_⟩
  · rw [ha]
    exact h.entry i
  · rw [ha, hc]
    exact h.table id
  · rw [he, h.engaged]
    unfold isRequired
    rw [ha]

theorem enable (h : Enrolled t) {id : CronId} {callback : CronCallback} (factor : Byte)
    (hown : id.own = some callback) : Enrolled (cronEnable t id factor callback) := by
  refine ⟨fun i => ?_, fun id' hid => ?_, ?_⟩
  · by_cases hi : i = id
    · subst hi
      exact .inr ((cronEnable_self t i factor callback).trans hown.symm)
    · rw [cronEnable_other t hi]
      exact h.entry i
  · rw [cronEnable_callback] at hid
    by_cases hi : CronId.idAt = id
    · subst hi
      rw [cronEnable_self]
      simp
    · rw [cronEnable_other t hi]
      exact h.table id' hid
  · have hrequired : isRequired (cronEnable t id factor callback) = true :=
      (isRequired_iff _).mpr ⟨id, by rw [cronEnable_self]; simp⟩
    rw [hrequired, cronEnable_eq]

/-- The table is to be empty when its entry is disabled. -/
theorem disable (h : Enrolled t) {id : CronId}
    (hat : id = .idAt → ∀ id', t.callback id' = none) : Enrolled (cronDisable t id) := by
  refine ⟨fun i => ?_, fun id' hid => ?_, ?_⟩
  · by_cases hi : i = id
    · subst hi
      exact .inl (cronDisable_self t i)
    · rw [cronDisable_other t hi]
      exact h.entry i
  · rw [cronDisable_callback] at hid
    by_cases hi : CronId.idAt = id
    · exact absurd (hat hi.symm id') hid
    · rw [cronDisable_other t hi]
      exact h.table id' hid
  · unfold cronDisable
    dsimp only
    split
    · rename_i hrequired
      obtain ⟨i, hi⟩ := (isRequired_iff _).mp hrequired
      -- what is still registered was so before, and the timer ran for it
      have hbefore : isRequired t = true := by
        refine (isRequired_iff t).mpr ⟨i, fun hnone => hi ?_⟩
        dsimp only
        rw [Function.update_apply, hnone]
        split <;> rfl
      rw [hrequired]
      exact h.engaged.trans hbefore
    · rename_i hidle
      exact (Bool.not_eq_true _ ▸ hidle : _ = false).symm

theorem schedule (h : Enrolled t) (id : AtId) (delay : Byte) (cb : AtCallback) :
    Enrolled (atSchedule t id delay cb) := by
  refine ⟨fun i => ?_, fun id' _ => ?_, ?_⟩
  · by_cases hi : i = .idAt
    · subst hi
      exact .inr (cronEnable_self _ _ _ _)
    · rw [atSchedule_other t hi]
      exact h.entry i
  · rw [atSchedule, cronEnable_self]
    simp
  · have hrequired : isRequired (atSchedule t id delay cb) = true :=
      (isRequired_iff _).mpr ⟨.idAt, by rw [atSchedule, cronEnable_self]; simp⟩
    rw [hrequired, atSchedule, cronEnable_eq]

theorem cancel (h : Enrolled t) (id : AtId) : Enrolled (atCancel t id) := by
  have hclear : Enrolled { t with callback := Function.update t.callback id none } := by
    refine ⟨h.entry, fun id' hid => ?_, h.engaged⟩
    dsimp only at hid
    rw [Function.update_apply] at hid
    split at hid
    · exact absurd rfl hid
    · exact h.table id' hid
  unfold atCancel
  dsimp only
  split
  · rename_i hempty
    refine hclear.disable fun _ id' => ?_
    exact (atAllEmpty_iff _).mp hempty id'
  · exact hclear

end Enrolled

/-! ### The steps -/

/-- What the mode and the registrations depend on. -/
def registrations (s : State) : (CronId → Option CronCallback) × (AtId → Option AtCallback) ×
    Bool × Option HeartbeatCallback × Mode :=
  (s.timers.callbackArray, s.timers.callback, s.timers.engaged, s.heartbeat.report, s.currentMode)

inductive TimerStep : State → State → Prop where
  | other {s s' : State} (h : registrations s' = registrations s) : TimerStep s s'
  | mode (s : State) (m : Mode) : TimerStep s (modeSet s m)
  | schedule (s : State) (id : AtId) (delay : Byte) (cb : AtCallback) :
      TimerStep s { s with timers := atSchedule s.timers id delay cb }
  | cancel (s : State) (id : AtId) : TimerStep s { s with timers := atCancel s.timers id }
  | lost {s : State} (h : s.timers.callbackArray .idHeartbeat ≠ none) :
      TimerStep s (runHeartbeatCallback (heartbeatCancel s) s.heartbeat.report)

/-- In radio mode, and only then, `shift_data` is shifted and the heartbeat is
watched, by a function that knows whom to report to. -/
structure RadioSound (s : State) : Prop where
  cron : Enrolled s.timers
  radio : ∀ i, i = CronId.idFlush ∨ i = CronId.idHeartbeat →
    (s.currentMode = .radio ↔ s.timers.callbackArray i ≠ none)
  report : s.timers.callbackArray .idHeartbeat ≠ none → s.heartbeat.report = some .switchToWatch

/-- `mode_set` on the timers, when the mode is another one. -/
theorem modeSet_timers {s : State} {m : Mode} (h : s.currentMode ≠ m) :
    (modeSet s m).timers =
      let t := cronDisable (cronDisable s.timers .idHeartbeat) .idFlush
      if m = .radio then
        cronEnable (cronEnable t .idFlush slaveDelay .flushShiftDisplay) .idHeartbeat hbDelay
          .heartbeatVerify
      else t := by
  unfold modeSet
  rw [if_neg h]
  cases m <;> rfl

/-- A change of the mode sets both entries, whatever they were. -/
theorem radioSound_modeSet {s : State} (h : Enrolled s.timers) {m : Mode}
    (hm : s.currentMode ≠ m) : RadioSound (modeSet s m) := by
  have htimers := modeSet_timers hm
  have hquiet : Enrolled (cronDisable (cronDisable s.timers .idHeartbeat) .idFlush) :=
    (h.disable fun hid => absurd hid (by decide)).disable fun hid => absurd hid (by decide)
  by_cases hradio : m = .radio
  · subst hradio
    rw [if_pos rfl] at htimers
    refine ⟨?_, fun i hi => ?_, fun _ => ?_⟩
    · rw [htimers]
      exact (hquiet.enable slaveDelay rfl).enable hbDelay rfl
    · rw [htimers, modeSet_mode]
      refine iff_of_true rfl ?_
      rcases hi with rfl | rfl
      · rw [cronEnable_other _ (by decide), cronEnable_self]
        simp
      · rw [cronEnable_self]
        simp
    · unfold modeSet
      rw [if_neg hm]
      rfl
  · rw [if_neg hradio] at htimers
    have hnone : ∀ i, i = CronId.idFlush ∨ i = CronId.idHeartbeat →
        (modeSet s m).timers.callbackArray i = none := by
      rintro i (rfl | rfl)
      · rw [htimers]
        exact cronDisable_self _ _
      · rw [htimers, cronDisable_other _ (by decide)]
        exact cronDisable_self _ _
    refine ⟨?_, fun i hi => ?_, fun hreg => ?_⟩
    · rw [htimers]
      exact hquiet
    · rw [modeSet_mode, hnone i hi]
      simp [hradio]
    · exact absurd (hnone .idHeartbeat (.inr rfl)) hreg

theorem TimerStep.radioSound {s s' : State} (step : TimerStep s s') (h : RadioSound s) :
    RadioSound s' := by
  cases step with
  | other he =>
    simp only [registrations, Prod.mk.injEq] at he
    obtain ⟨ha, hc, hg, hr, hm⟩ := he
    refine ⟨h.cron.of_eq ha hc hg, ?_, ?_⟩
    · rw [ha, hm]
      exact h.radio
    · rw [ha, hr]
      exact h.report
  | mode m =>
    by_cases hm : s.currentMode = m
    · have hsame : modeSet s m = s := if_pos hm
      rw [hsame]
      exact h
    · exact radioSound_modeSet h.cron hm
  | schedule id delay cb =>
    have hother : ∀ i, i = CronId.idFlush ∨ i = CronId.idHeartbeat →
        (atSchedule s.timers id delay cb).callbackArray i = s.timers.callbackArray i := by
      rintro i (rfl | rfl) <;> exact atSchedule_other _ (by decide) _ _ _
    refine ⟨h.cron.schedule id delay cb, fun i hi => ?_, fun hreg => ?_⟩
    · rw [hother i hi]
      exact h.radio i hi
    · rw [hother _ (.inr rfl)] at hreg
      exact h.report hreg
  | cancel id =>
    have hother : ∀ i, i = CronId.idFlush ∨ i = CronId.idHeartbeat →
        (atCancel s.timers id).callbackArray i = s.timers.callbackArray i := by
      rintro i (rfl | rfl) <;> exact atCancel_other _ (by decide) _
    refine ⟨h.cron.cancel id, fun i hi => ?_, fun hreg => ?_⟩
    · rw [hother i hi]
      exact h.radio i hi
    · rw [hother _ (.inr rfl)] at hreg
      exact h.report hreg
  | lost hreg =>
    -- between the cancellation and the report the mode is still radio
    rw [h.report hreg]
    have hradio := (h.radio .idHeartbeat (.inr rfl)).mpr hreg
    have hcancel : Enrolled (heartbeatCancel s).timers :=
      h.cron.disable fun hid => absurd hid (by decide)
    have hmode : (heartbeatCancel s).currentMode ≠ .watch := by
      rw [show (heartbeatCancel s).currentMode = .radio from hradio]
      decide
    exact radioSound_modeSet hcancel hmode

end LedServer.Avr
