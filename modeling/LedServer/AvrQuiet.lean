import LedServer.AvrDecode
import LedServer.AvrLinkFlow

set_option autoImplicit false

/-!
# What the menu, the mode and the timers leave alone

Outside `decode` and `postpone_try` the main loop sends messages with the serial
to ignore, never touches `read_buf`, the decoder or the postponed slot, and only
takes from `shift_data`. The stored function pointers keep their owners.
-/
namespace LedServer.Avr
open AvrRing

structure LinkQuiet (l l' : Link) : Prop where
  readBuf : l'.readBuf = l.readBuf
  slot : l'.postponedSize = l.postponedSize
  flows : ∀ sent held, Flows l sent held → ∃ made out : List Message,
    (∀ m ∈ made, m.serial = serialIdToIgnore) ∧ out.Sublist made ∧
      Flows l' (sent ++ out) held ∧ Sends l l' out ∧
      l'.created = l.created ++ made.map Message.frame ∧ l'.discarded = l.discarded

structure FlushQuiet (f f' : Flush) : Prop where
  columns : f'.columns = f.columns
  shifted : f'.shifted = f.shifted
  valid : f.shiftData.Valid → f'.shiftData.Valid
  suffix : f.shiftData.Valid → f'.shiftData.contents <:+ f.shiftData.contents

/-- The function pointers of `at.c`, `heartbeat.c` and `flush.c`, and the mode. -/
def pointers (s : State) : (AtId → Option AtCallback) × Option HeartbeatCallback ×
    Option HeartbeatCallback × Option CronCallback × Mode :=
  (s.timers.callback, s.heartbeat.report, s.heartbeat.provoke, s.timers.callbackArray .idFlush,
    s.currentMode)

/-- Each pointer holds the one function it is ever given, or none; in radio mode
the flush cron holds its own. -/
structure Wired (s : State) : Prop where
  table : TableSound s.timers.callback
  report : s.heartbeat.report = none ∨ s.heartbeat.report = some .switchToWatch
  provoke : s.heartbeat.provoke = none ∨ s.heartbeat.provoke = some .spiInterruptStart
  flushes : s.currentMode = .radio → s.timers.callbackArray .idFlush = some .flushShiftDisplay

theorem Wired.of_eq {s s' : State} (h : Wired s) (hw : pointers s' = pointers s) : Wired s' := by
  simp only [pointers, Prod.mk.injEq] at hw
  obtain ⟨ht, hr, hp, hf, hm⟩ := hw
  exact ⟨ht ▸ h.table, hr ▸ h.report, hp ▸ h.provoke, hf ▸ hm ▸ h.flushes⟩

structure Quiet (s s' : State) : Prop where
  link : LinkQuiet s.link s'.link
  flush : FlushQuiet s.flush s'.flush
  decoder : s'.decoder = s.decoder
  wired : Wired s → Wired s'

/-! ### The rules -/

theorem LinkQuiet.refl (l : Link) : LinkQuiet l l where
  readBuf := rfl
  slot := rfl
  flows sent held h := ⟨[], [], by simp, List.Sublist.refl _, by simpa using h, Sends.refl l,
    by simp, rfl⟩

theorem LinkQuiet.trans {l₁ l₂ l₃ : Link} (h : LinkQuiet l₁ l₂) (h' : LinkQuiet l₂ l₃) :
    LinkQuiet l₁ l₃ where
  readBuf := h'.readBuf.trans h.readBuf
  slot := h'.slot.trans h.slot
  flows sent held hf := by
    obtain ⟨made, out, hz, hsub, hf₂, hs, hc, hd⟩ := h.flows sent held hf
    obtain ⟨made', out', hz', hsub', hf₃, hs', hc', hd'⟩ := h'.flows _ held hf₂
    refine ⟨made ++ made', out ++ out', ?_, hsub.append hsub', ?_, hs.trans hs', ?_,
      hd'.trans hd⟩
    · intro m hm
      rcases List.mem_append.mp hm with hm | hm
      · exact hz m hm
      · exact hz' m hm
    · rw [← List.append_assoc]
      exact hf₃
    · rw [hc', hc, List.map_append, List.append_assoc]

/-- The two pins are nobody's concern but the other machine's. -/
theorem linkQuiet_pins (l : Link) (irq confirm : Bool) :
    LinkQuiet l { l with irq := irq, confirm := confirm } where
  readBuf := rfl
  slot := rfl
  flows sent held h := by
    refine ⟨[], [], by simp, List.Sublist.refl _, ?_, ⟨rfl, rfl, rfl, by simp⟩, by simp, rfl⟩
    rw [List.append_nil]
    refine ⟨h.readValid, h.writeValid, h.room, h.written, h.small, ?_⟩
    have hslot := h.slot
    cases held <;> exact hslot

theorem postponeMessage_readBuf (l : Link) (msg : List Byte) (serialId : Byte) :
    (postponeMessage l msg serialId).readBuf = l.readBuf := by
  unfold postponeMessage
  dsimp only
  split_ifs <;> rfl

theorem postponeMessage_slot (l : Link) (msg : List Byte) :
    (postponeMessage l msg serialIdToIgnore).postponedSize = l.postponedSize := by
  unfold postponeMessage
  rw [if_pos rfl]
  split_ifs <;> rfl

theorem linkQuiet_send (l : Link) (m : Message) (hz : m.serial = serialIdToIgnore)
    (hm : m.payload.length ≤ 8) : LinkQuiet l (postponeMessage l m.frame m.serial) where
  readBuf := postponeMessage_readBuf l _ _
  slot := by rw [hz]; exact postponeMessage_slot l _
  flows sent held h := by
    obtain ⟨out, hsub, hf, hs, hc, hd⟩ := postpone_ignored h hz hm
    exact ⟨[m], out, by simpa using hz, hsub, hf, hs, by simpa using hc, hd⟩

theorem FlushQuiet.refl (f : Flush) : FlushQuiet f f :=
  ⟨rfl, rfl, id, fun _ => List.suffix_rfl⟩

theorem FlushQuiet.trans {f₁ f₂ f₃ : Flush} (h : FlushQuiet f₁ f₂) (h' : FlushQuiet f₂ f₃) :
    FlushQuiet f₁ f₃ where
  columns := h'.columns.trans h.columns
  shifted := h'.shifted.trans h.shifted
  valid hv := h'.valid (h.valid hv)
  suffix hv := (h'.suffix (h.valid hv)).trans (h.suffix hv)

theorem flushQuiet_drainStart (f : Flush) : FlushQuiet f (flushShiftDrainStart f) where
  columns := rfl
  shifted := rfl
  valid _ := bufferClear_valid _
  suffix _ := by
    rw [show (flushShiftDrainStart f).shiftData.contents = [] from ringClear_contents _]
    exact List.nil_suffix

theorem flushQuiet_drainStop (f : Flush) : FlushQuiet f (flushShiftDrainStop f) :=
  ⟨rfl, rfl, id, fun _ => List.suffix_rfl⟩

theorem flushQuiet_brightness (f : Flush) (bNess : Byte) :
    FlushQuiet f (flushBrightnessSet f bNess) := by
  unfold flushBrightnessSet
  split_ifs
  · exact FlushQuiet.refl f
  · exact ⟨rfl, rfl, id, fun _ => List.suffix_rfl⟩

theorem flushQuiet_display (f : Flush) : FlushQuiet f (flushShiftDisplay f) := by
  unfold flushShiftDisplay
  split_ifs
  · exact FlushQuiet.refl f
  · exact ⟨rfl, rfl, fun hv => byteDrain_valid hv, fun hv => bufferByteDrain_suffix hv⟩

theorem Quiet.refl (s : State) : Quiet s s := ⟨.refl _, .refl _, rfl, id⟩

theorem Quiet.trans {s₁ s₂ s₃ : State} (h : Quiet s₁ s₂) (h' : Quiet s₂ s₃) : Quiet s₁ s₃ :=
  ⟨h.link.trans h'.link, h.flush.trans h'.flush, h'.decoder.trans h.decoder,
    fun hw => h'.wired (h.wired hw)⟩

/-- A step that changes none of the four. -/
theorem Quiet.of_eq {s s' : State} (hl : s'.link = s.link) (hf : s'.flush = s.flush)
    (hd : s'.decoder = s.decoder) (hw : pointers s' = pointers s) : Quiet s s' :=
  ⟨hl ▸ .refl _, hf ▸ .refl _, hd, fun h => h.of_eq hw⟩

/-- Such a step, then a quiet one. -/
theorem Quiet.from_eq {s s₂ s' : State} (h : Quiet s₂ s') (hl : s₂.link = s.link)
    (hf : s₂.flush = s.flush) (hd : s₂.decoder = s.decoder)
    (hw : pointers s₂ = pointers s) : Quiet s s' :=
  (Quiet.of_eq hl hf hd hw).trans h

/-- A quiet step, then such a step. -/
theorem Quiet.to_eq {s s₂ s' : State} (h : Quiet s s₂) (hl : s'.link = s₂.link)
    (hf : s'.flush = s₂.flush) (hd : s'.decoder = s₂.decoder)
    (hw : pointers s' = pointers s₂) : Quiet s s' :=
  h.trans (.of_eq hl hf hd hw)

theorem Wired.of_timers {s s' : State} (hw : Wired s) (ht : TableSound s'.timers.callback)
    (hf : s'.timers.callbackArray .idFlush = s.timers.callbackArray .idFlush)
    (hh : s'.heartbeat = s.heartbeat) (hm : s'.currentMode = s.currentMode) : Wired s' :=
  ⟨ht, hh ▸ hw.report, hh ▸ hw.provoke, fun h => hf.trans (hw.flushes (hm ▸ h))⟩

theorem Quiet.of_timers {s : State} {t : Timers}
    (h : TableSound s.timers.callback → TableSound t.callback)
    (hf : t.callbackArray .idFlush = s.timers.callbackArray .idFlush) :
    Quiet s { s with timers := t } :=
  ⟨.refl _, .refl _, rfl, fun hw => hw.of_timers (h hw.table) hf rfl rfl⟩

theorem quiet_twi (s : State) (t : AvrTwi.Twi) : Quiet s { s with twi := t } :=
  .of_eq rfl rfl rfl rfl

theorem quiet_ite {p : Prop} [Decidable p] {s a b : State} (ha : Quiet s a) (hb : Quiet s b) :
    Quiet s (if p then a else b) := by
  split
  · exact ha
  · exact hb

theorem quiet_ite_fst {α : Type} {p : Prop} [Decidable p] {s : State} {a b : State × α}
    (ha : Quiet s a.1) (hb : Quiet s b.1) : Quiet s (if p then a else b).1 := by
  split
  · exact ha
  · exact hb

theorem Quiet.of_link {s : State} {l : Link} (h : LinkQuiet s.link l) :
    Quiet s { s with link := l } := ⟨h, .refl _, rfl, fun hw => hw.of_eq rfl⟩

theorem Quiet.of_flush {s : State} {f : Flush} (h : FlushQuiet s.flush f) :
    Quiet s { s with flush := f } := ⟨.refl _, h, rfl, fun hw => hw.of_eq rfl⟩

/-! ### `mode.c` and `heartbeat.c` -/

@[simp] theorem modeSet_link (s : State) (m : Mode) : (modeSet s m).link = s.link := by
  unfold modeSet heartbeatStart heartbeatCancel
  split_ifs
  · rfl
  · cases m <;> rfl

@[simp] theorem modeSet_flush (s : State) (m : Mode) : (modeSet s m).flush = s.flush := by
  unfold modeSet heartbeatStart heartbeatCancel
  split_ifs
  · rfl
  · cases m <;> rfl

@[simp] theorem modeSet_decoder (s : State) (m : Mode) : (modeSet s m).decoder = s.decoder := by
  unfold modeSet heartbeatStart heartbeatCancel
  split_ifs
  · rfl
  · cases m <;> rfl

@[simp] theorem modeSet_menu (s : State) (m : Mode) : (modeSet s m).menu = s.menu := by
  unfold modeSet heartbeatStart heartbeatCancel
  split_ifs
  · rfl
  · cases m <;> rfl

@[simp] theorem modeSet_mode (s : State) (m : Mode) : (modeSet s m).currentMode = m := by
  unfold modeSet heartbeatStart heartbeatCancel
  split_ifs with h
  · exact h
  · cases m <;> rfl

@[simp] theorem modeSet_callback (s : State) (m : Mode) :
    (modeSet s m).timers.callback = s.timers.callback := by
  unfold modeSet heartbeatStart heartbeatCancel
  split_ifs
  · rfl
  · cases m <;> simp

theorem modeSet_flushes (s : State) (m : Mode)
    (h : s.currentMode = .radio → s.timers.callbackArray .idFlush = some .flushShiftDisplay) :
    (modeSet s m).currentMode = .radio →
      (modeSet s m).timers.callbackArray .idFlush = some .flushShiftDisplay := by
  rw [modeSet_mode]
  rintro rfl
  unfold modeSet heartbeatStart heartbeatCancel
  split_ifs with hm
  · exact h hm
  · dsimp only
    rw [cronEnable_other _ (by decide)]
    exact cronEnable_self _ _ _ _

theorem modeSet_wired (s : State) (m : Mode) (h : Wired s) : Wired (modeSet s m) := by
  refine ⟨by rw [modeSet_callback]; exact h.table, ?_, ?_, modeSet_flushes s m h.flushes⟩
  all_goals unfold modeSet heartbeatStart heartbeatCancel; split_ifs
  · exact h.report
  · cases m
    · exact h.report
    · exact h.report
    · exact .inr rfl
  · exact h.provoke
  · cases m
    · exact h.provoke
    · exact h.provoke
    · exact .inr rfl

theorem quiet_modeSet (s : State) (m : Mode) : Quiet s (modeSet s m) :=
  ⟨modeSet_link s m ▸ .refl _, modeSet_flush s m ▸ .refl _, modeSet_decoder s m,
    modeSet_wired s m⟩

theorem quiet_runHeartbeatCallback (s : State) (cb : Option HeartbeatCallback) :
    Quiet s (runHeartbeatCallback s cb) := by
  match cb with
  | none => exact .refl s
  | some .switchToWatch => exact quiet_modeSet s .watch
  | some .spiInterruptStart => exact .of_link (linkQuiet_pins s.link true s.link.confirm)

theorem quiet_heartbeatVerify (s : State) : Quiet s (heartbeatVerify s) := by
  unfold heartbeatVerify
  refine quiet_ite ?_ (quiet_ite ?_ ?_)
  · exact (quiet_runHeartbeatCallback _ _).from_eq rfl rfl rfl
      (by simp [pointers, heartbeatCancel, cronDisable_other])
  · exact (quiet_runHeartbeatCallback _ _).from_eq rfl rfl rfl rfl
  · exact .of_eq rfl rfl rfl rfl

/-! ### `menu.c` -/

theorem quiet_sendMessage0 (s : State) (msgId : Byte) : Quiet s (sendMessage0 s msgId) := by
  unfold sendMessage0
  split_ifs
  · exact .of_link (linkQuiet_send s.link ⟨serialIdToIgnore, msgId, []⟩ rfl (by simp))
  · exact .refl s

theorem quiet_sendMessage1 (s : State) (msgId a : Byte) : Quiet s (sendMessage1 s msgId a) := by
  unfold sendMessage1
  split_ifs
  · exact .of_link (linkQuiet_send s.link ⟨serialIdToIgnore, msgId, [a]⟩ rfl (by simp))
  · exact .refl s

theorem quiet_sendMessage2 (s : State) (msgId a b : Byte) : Quiet s (sendMessage2 s msgId a b) := by
  unfold sendMessage2
  split_ifs
  · exact .of_link (linkQuiet_send s.link ⟨serialIdToIgnore, msgId, [a, b]⟩ rfl (by simp))
  · exact .refl s

theorem quiet_sendMessage3 (s : State) (a b c : Byte) : Quiet s (sendMessage3 s a b c) := by
  unfold sendMessage3
  split_ifs
  · exact .of_link (linkQuiet_send s.link ⟨serialIdToIgnore, msgIdParamSet, [a, b, c]⟩ rfl (by simp))
  · exact .refl s

theorem quiet_querySource (s : State) : Quiet s (querySource s) := by
  unfold querySource
  refine quiet_ite (.refl s) (quiet_ite (.refl s) ?_)
  exact (quiet_sendMessage1 s msgIdQueryNumber _).to_eq rfl rfl rfl rfl

theorem quiet_enterTag (s : State) :
    Quiet s (modeSet (sendMessage0 { s with flush := flushShiftDrainStop s.flush } msgIdResume)
      .radio) :=
  ((Quiet.of_flush (flushQuiet_drainStop _)).trans (quiet_sendMessage0 _ _)).trans
    (quiet_modeSet _ _)

theorem quiet_leaveTag (s : State) :
    Quiet s (modeSet { sendMessage0 s msgIdSuspend with
      flush := flushShiftDrainStart (sendMessage0 s msgIdSuspend).flush } .menu) :=
  (quiet_sendMessage0 s _).trans
    ((Quiet.of_flush (flushQuiet_drainStart _)).trans (quiet_modeSet _ _))

theorem quiet_setState (s : State) (newState : MenuState) : Quiet s (setState s newState) := by
  unfold setState
  refine quiet_ite (.refl s) ?_
  exact (quiet_ite (quiet_leaveTag s) (quiet_ite (quiet_enterTag s) (.refl s))).to_eq rfl rfl rfl rfl

theorem quiet_reset (s : State) : Quiet s (reset s) := .of_eq rfl rfl rfl rfl

theorem quiet_start (s : State) (rotorId : Byte) : Quiet s (start s rotorId) := by
  unfold start
  refine quiet_ite (.refl s) ?_
  dsimp only
  refine ((Quiet.from_eq (quiet_modeSet _ .menu) ?_ ?_ ?_ ?_).trans
    (quiet_sendMessage0 _ msgIdSuspend)).trans (.of_flush (flushQuiet_drainStart _))
  all_goals rfl

theorem quiet_setBrightness (s : State) (bNess : Byte) : Quiet s (setBrightness s bNess) :=
  .of_flush (flushQuiet_brightness _ _)

theorem quiet_stopAction (s : State) (param : Byte) : Quiet s (stopAction s param) := by
  have boot : Quiet s (bootPi s) :=
    ⟨.refl _, .refl _, rfl, fun h => h.of_timers (h.table.schedule .boot bootHoldTime)
      (atSchedule_other _ (by decide) _ _ _) rfl rfl⟩
  exact stopAction_cases s (.refl s) (quiet_setBrightness s) (quiet_sendMessage3 s)
    (quiet_sendMessage1 s msgIdPoweroff) (quiet_sendMessage0 s msgIdReboot) boot param

/-- What `stop` does once it has acted on the parameter. -/
theorem quiet_close (s : State) :
    Quiet s (reset (sendMessage0 (modeSet { s with flush := flushShiftDrainStop s.flush }
      s.menu.backupMode) msgIdResume)) :=
  ((Quiet.of_flush (flushQuiet_drainStop _)).trans (quiet_modeSet _ _)).trans
    ((quiet_sendMessage0 _ _).trans (quiet_reset _))

theorem quiet_stop (s : State) : Quiet s (stop s) :=
  (quiet_ite (quiet_setState s .value) (.refl s)).trans
    ((quiet_stopAction _ _).trans (quiet_close _))

theorem quiet_schedule (s : State) (delay : Byte) : Quiet s (schedule s delay) :=
  .of_timers (fun h => (h.cancel .menu).schedule .menu delay)
    ((atSchedule_other _ (by decide) _ _ _).trans (atCancel_other _ (by decide) _))

theorem quiet_tagRequest (s : State) : Quiet s (tagRequest s) := by
  unfold tagRequest
  exact quiet_ite (.refl s)
    (quiet_ite (.refl s) (quiet_ite (.refl s) (quiet_sendMessage2 s _ _ _)))

theorem quiet_scheduleTag (s : State) : Quiet s (scheduleTag s) := by
  unfold scheduleTag
  exact quiet_ite (.refl s) (quiet_ite (.refl s)
    ⟨.refl _, .refl _, rfl, fun h =>
      h.of_timers ((h.table.cancel .menuTag).schedule .menuTag delayTag)
        ((atSchedule_other _ (by decide) _ _ _).trans (atCancel_other _ (by decide) _)) rfl rfl⟩)

theorem quiet_turnSame (s : State) (id action : Byte) : Quiet s (turnSame s id action) := by
  unfold turnSame
  cases s.menu.state with
  | apply => exact .of_eq rfl rfl rfl rfl
  | param => exact .of_eq rfl rfl rfl rfl
  | value =>
    refine Quiet.trans (quiet_ite ?_ (.refl s)) ((quiet_scheduleTag _).from_eq rfl rfl rfl rfl)
    exact (quiet_querySource _).from_eq rfl rfl rfl rfl
  | idle => exact .refl s
  | tag => exact .refl s

theorem quiet_turnOther (s : State) (id action : Byte) : Quiet s (turnOther s id action) := by
  unfold turnOther
  cases rotorToState id with
  | apply => exact .of_eq rfl rfl rfl rfl
  | param => exact .of_eq rfl rfl rfl rfl
  | _ => exact (quiet_querySource _).from_eq rfl rfl rfl rfl

theorem quiet_menuHandleRotor (s : State) (id action : Byte) :
    Quiet s (menuHandleRotor s id action) := by
  unfold menuHandleRotor
  refine quiet_ite (.refl s) (quiet_ite ?_ ?_)
  · exact (quiet_turnSame s id action).trans (quiet_schedule _ _)
  · exact (quiet_ite (quiet_start s id) (.refl s)).trans ((quiet_setState _ _).trans
      ((quiet_turnOther _ _ _).trans (quiet_schedule _ _)))

theorem quiet_menuParameterValue (s : State) (parameter value min max : Byte) :
    Quiet s (menuParameterValue s parameter value min max).1 := by
  unfold menuParameterValue
  exact quiet_ite_fst (.refl s) ((quiet_schedule _ _).from_eq rfl rfl rfl rfl)

theorem quiet_menuParameterName (s : State) (parameter id : Byte) :
    Quiet s (menuParameterName s parameter id).1 := by
  unfold menuParameterName
  exact quiet_ite_fst (.refl s)
    (quiet_ite_fst (.refl s) ((quiet_schedule s _).trans (quiet_setState _ _)))

/-! ### Timers -/

theorem quiet_runAtCallback (s : State) (cb : AtCallback) : Quiet s (runAtCallback s cb) := by
  cases cb with
  | releaseWire => exact .of_eq rfl rfl rfl rfl
  | stop => exact quiet_stop s
  | tagRequest => exact quiet_tagRequest s
  | misconfirm => exact .of_link (linkQuiet_pins s.link s.link.irq false)

theorem quiet_atExpire (s : State) (id : AtId) : Quiet s (atExpire s id) := by
  unfold atExpire
  cases s.timers.callback id with
  | none => exact .refl s
  | some cb =>
    have hcb := quiet_runAtCallback s cb
    have hclear : Quiet (runAtCallback s cb) { runAtCallback s cb with
        timers := { (runAtCallback s cb).timers with
          callback := Function.update (runAtCallback s cb).timers.callback id none } } :=
      .of_timers (fun h => h.update id fun cb hcb => absurd hcb (by simp)) rfl
    refine quiet_ite ?_ ?_
    · exact (hcb.trans hclear).to_eq rfl rfl rfl (by simp [pointers, cronDisable_other])
    · exact hcb.trans hclear

theorem quiet_atVerifyEntry (s : State) (id : AtId) : Quiet s (atVerifyEntry s id) := by
  unfold atVerifyEntry
  refine quiet_ite (.refl s) (quiet_ite ?_ ?_)
  · exact (quiet_atExpire _ _).from_eq rfl rfl rfl rfl
  · exact .of_eq rfl rfl rfl rfl

theorem quiet_atVerify (s : State) : Quiet s (atVerify s) :=
  ((quiet_atVerifyEntry s _).trans (quiet_atVerifyEntry _ _)).trans
    ((quiet_atVerifyEntry _ _).trans (quiet_atVerifyEntry _ _))

theorem quiet_runCronCallback (s : State) (cb : CronCallback) : Quiet s (runCronCallback s cb) := by
  cases cb with
  | atVerify => exact quiet_atVerify s
  | flushShiftDisplay => exact .of_flush (flushQuiet_display _)
  | heartbeatVerify => exact quiet_heartbeatVerify s

theorem quiet_cronTry (s : State) : Quiet s (cronTry s) := by
  unfold cronTry
  rcases bufByteDrain s.timers.queue with ⟨queue, _ | id⟩
  · exact .of_eq rfl rfl rfl rfl
  · dsimp only
    cases CronId.ofByte id with
    | none => exact .of_eq rfl rfl rfl rfl
    | some id =>
      dsimp only
      cases s.timers.callbackArray id with
      | none => exact .of_eq rfl rfl rfl rfl
      | some callback => exact (quiet_runCronCallback _ _).from_eq rfl rfl rfl rfl

end LedServer.Avr
