import LedServer.LoopTimers
import LedServer.MenuCursor
import LedServer.PictureReading

set_option autoImplicit false

/-!
# The picture of the menu in a run

`menu.c` renders where a knob or a number calls for it, and `watch.c` when a read of
the clock is reported, in any mode. So the picture given last is the menu as it
stands or the time in `buffer`, and what `stop` will do can be read in the menu's.
-/
namespace LedServer.Avr
open AvrRing Machine

/-- What is passed to `flush_stable_display`, and the file that has rendered it. -/
inductive Picture where
  | menu (buf : Buf)
  | watch (buf : Buf)

/-- `picture` is the last one. -/
structure Screen where
  state : State
  watch : Watch
  picture : Option Picture

/-- The picture rendered inside `decode`, if there is one. -/
def decodePicture (s : State) : Option Buf :=
  if s.decoder.msgId = msgIdQueryNumber then
    valuePicture s (inByte s.decoder 0) (inByte s.decoder 1) (inByte s.decoder 2)
      (inByte s.decoder 3)
  else none

/-- The picture of the menu a step renders, if it does. -/
def renders (s : State) : LoopEvent → Option Buf
  | .hold (.rotor id action) => rotorPicture s id action
  | .hold (.message m _) => decodePicture { s with decoder := arrive s.decoder m }
  | _ => none

/-- What a step does to `buffer`, and the picture `watch.c` renders, if it does. -/
def reports (t : Screen) : LoopEvent → Watch × Option Buf
  | .twiTry => watchCallback t.watch (AvrTwi.twiTry t.state.twi).2
  | _ => (t.watch, none)

def screenStep (t : Screen) (e : LoopEvent) : Screen where
  state := loopStep t.state e
  watch := (reports t e).1
  picture := ((renders t.state e).map .menu).or (((reports t e).2.map .watch).or t.picture)

def screenStart : Screen := ⟨init, watchZero, none⟩

/-! ### Steps that leave the menu or close it -/

/-- What `reset` leaves. -/
def Closed (m : Menu) : Prop := m.state = .idle ∧ m.paramFlag = flagMaskBrightness

def MenuStill (s s' : State) : Prop := s'.menu = s.menu ∨ Closed s'.menu

theorem MenuStill.trans {s s₁ s' : State} (h : MenuStill s s₁) (h' : MenuStill s₁ s') :
    MenuStill s s' := by
  rcases h' with hsame | hclosed
  · unfold MenuStill
    rw [hsame]
    exact h
  · exact .inr hclosed

theorem still_refl (s : State) : MenuStill s s := .inl rfl

theorem still_ite {p : Prop} [Decidable p] {s a b : State} (ha : MenuStill s a)
    (hb : MenuStill s b) : MenuStill s (if p then a else b) := by
  split
  · exact ha
  · exact hb

theorem stop_resets (s : State) : Closed (stop s).menu := ⟨rfl, rfl⟩

theorem still_runAtCallback (s : State) (cb : AtCallback) : MenuStill s (runAtCallback s cb) := by
  cases cb with
  | releaseWire => exact .inl rfl
  | stop => exact .inr (stop_resets s)
  | tagRequest => exact .inl (tagRequest_menu s)
  | misconfirm => exact .inl rfl

theorem still_atExpire (s : State) (id : AtId) : MenuStill s (atExpire s id) := by
  unfold atExpire
  cases s.timers.callback id with
  | none => exact still_refl s
  | some cb =>
    have hrun := still_runAtCallback s cb
    exact still_ite hrun hrun

theorem still_atVerify (s : State) : MenuStill s (atVerify s) := by
  have hentry : ∀ (s : State) (id : AtId), MenuStill s (atVerifyEntry s id) := by
    intro s id
    unfold atVerifyEntry
    dsimp only
    refine still_ite (still_refl s) (still_ite ?_ (.inl rfl))
    exact MenuStill.trans (.inl rfl) (still_atExpire _ id)
  unfold atVerify
  induction AtId.all generalizing s with
  | nil => exact still_refl s
  | cons id ids ih => exact (hentry s id).trans (ih (atVerifyEntry s id))

theorem runHeartbeatCallback_menu (s : State) (cb : Option HeartbeatCallback) :
    (runHeartbeatCallback s cb).menu = s.menu := by
  rcases cb with _ | _ | _
  · rfl
  · exact modeSet_menu s .watch
  · rfl

theorem still_heartbeatVerify (s : State) : MenuStill s (heartbeatVerify s) := by
  unfold heartbeatVerify
  dsimp only
  refine still_ite (.inl ?_) (still_ite (.inl ?_) (.inl rfl))
  · exact runHeartbeatCallback_menu _ _
  · exact runHeartbeatCallback_menu _ _

theorem still_cronTry (s : State) : MenuStill s (cronTry s) := by
  unfold cronTry
  rcases bufByteDrain s.timers.queue with ⟨queue, _ | id⟩
  · exact .inl rfl
  · dsimp only
    cases CronId.ofByte id with
    | none => exact .inl rfl
    | some id =>
      dsimp only
      cases s.timers.callbackArray id with
      | none => exact .inl rfl
      | some cb =>
        cases cb with
        | atVerify => exact MenuStill.trans (.inl rfl) (still_atVerify _)
        | flushShiftDisplay => exact .inl rfl
        | heartbeatVerify => exact MenuStill.trans (.inl rfl) (still_heartbeatVerify _)

/-- All but the knobs and the messages. -/
theorem still_loopStep (s : State) {e : LoopEvent}
    (hrotor : ∀ id action, e ≠ .hold (.rotor id action))
    (hmessage : ∀ m fits, e ≠ .hold (.message m fits)) : MenuStill s (loopStep s e) := by
  cases e with
  | hold e =>
    cases e with
    | message m fits => exact absurd rfl (hmessage m fits)
    | rotor id action => exact absurd rfl (hrotor id action)
    | exchange received => exact .inl rfl
    | postponeTry => exact .inl rfl
    | expire id => exact still_atExpire s id
    | flushTick => exact still_ite (.inl rfl) (still_refl s)
    | heartbeatTick => exact still_ite (still_heartbeatVerify s) (still_refl s)
    | int2 => exact .inl (twi_menu s _)
    | int3 => exact .inl rfl
  | counterTry => exact .inl rfl
  | cronTry => exact still_cronTry s
  | verify => exact still_atVerify s
  | schedule id delay cb => exact .inl rfl
  | postpone id => exact .inl rfl
  | cancel id => exact .inl rfl
  | twiTry => exact .inl (twi_menu s _)
  | twiVect twsr received => exact .inl (twi_menu s _)

/-! ### What the picture shows -/

/-- A picture depends on its own parameter only. -/
theorem menuRender_congr {m m' : Menu} (hstate : m'.state = m.state) (hparam : m'.paramId = m.paramId)
    (hvalue : isValue m.paramId = true →
      m'.paramFlag &&& valueFlag m.paramId = m.paramFlag &&& valueFlag m.paramId ∧
        m'.paramOld (valueIdOf m.paramId) = m.paramOld (valueIdOf m.paramId) ∧
        m'.paramNew (valueIdOf m.paramId) = m.paramNew (valueIdOf m.paramId)) :
    menuRender m' = menuRender m := by
  unfold menuRender
  rw [hstate, hparam]
  cases hv : isValue m.paramId with
  | false =>
    unfold renderSource renderDestination
    rw [hv]
    rfl
  | true =>
    obtain ⟨hflag, hold, hnew⟩ := hvalue hv
    unfold renderSource renderDestination
    rw [hv, hflag, hold, hnew]

theorem isValue_iff (param : Byte) : isValue param = true ↔
    param = paramTrack ∨ param = paramVolume ∨ param = paramBrightness ∨ param = paramPlaylist := by
  simp [isValue, or_assoc]

/-- The flag and the value of a number that has arrived. -/
def numberFlag (parameter : Byte) : Byte :=
  if parameter = parameterVolume then flagVolume
  else if parameter = parameterTrack then flagTrack else flagPlaylist

def numberId (parameter : Byte) : ValueId :=
  if parameter = parameterVolume then .volume
  else if parameter = parameterTrack then .track else .playlist

/-- Those of another parameter. -/
theorem number_apart {parameter param : Byte} (hvalue : isValue param = true)
    (hother : paramOfParameter parameter ≠ param) :
    numberFlag parameter &&& valueFlag param = 0 ∧ valueIdOf param ≠ numberId parameter := by
  unfold paramOfParameter at hother
  unfold numberFlag numberId
  rcases (isValue_iff param).mp hvalue with rfl | rfl | rfl | rfl <;> revert hother <;>
    split_ifs <;> decide

/-- The number of another parameter has arrived. -/
theorem menuRender_other {s : State} {parameter : Byte} (value min max : Byte)
    (hother : paramOfParameter parameter ≠ s.menu.paramId) :
    menuRender (menuParameterValue s parameter value min max).1.menu = menuRender s.menu := by
  unfold menuParameterValue
  split
  · rfl
  · refine menuRender_congr rfl rfl fun hvalue => ?_
    obtain ⟨hflag, hid⟩ := number_apart hvalue hother
    exact ⟨flag_other s.menu.paramFlag hflag, Function.update_of_ne hid _ _,
      Function.update_of_ne hid _ _⟩

/-! ### The brightness is always known -/

def Bright (m : Menu) : Prop := m.paramFlag &&& flagBrightness ≠ 0

theorem bright_or {flags : Byte} (h : flags &&& flagBrightness ≠ 0) (flag : Byte) :
    (flags ||| flag) &&& flagBrightness ≠ 0 := by
  rw [BitVec.and_comm, BitVec.and_or_distrib_left, BitVec.and_comm]
  exact fun hzero => h (BitVec.or_eq_zero_iff.mp hzero).1

theorem bright_ite {p : Prop} [Decidable p] {a b : State} (ha : Bright a.menu)
    (hb : Bright b.menu) : Bright (if p then a else b).menu := by
  split
  · exact ha
  · exact hb

theorem bright_querySource {s : State} (h : Bright s.menu) : Bright (querySource s).menu := by
  have hsent : ∀ body, Bright (sendMessage1 s msgIdQueryNumber body).menu := by
    intro body
    rwa [sendMessage1_menu]
  unfold querySource
  exact bright_ite h (bright_ite h (bright_or (hsent _) _))

theorem bright_selectValue {m : Menu} (h : Bright m) (action : Byte) :
    Bright (selectValue m action) := by
  unfold selectValue
  dsimp only
  split_ifs <;> exact h

theorem bright_selectParam {m : Menu} (h : Bright m) (action : Byte) :
    Bright (selectParam m action) := by
  unfold selectParam
  split_ifs <;> exact h

theorem bright_scheduleTag {s : State} (h : Bright s.menu) : Bright (scheduleTag s).menu := by
  unfold scheduleTag
  exact bright_ite h (bright_ite h h)

theorem bright_turnSame {s : State} (h : Bright s.menu) (id action : Byte) :
    Bright (turnSame s id action).menu := by
  unfold turnSame
  cases s.menu.state with
  | apply => exact h
  | param => exact bright_selectParam h action
  | value =>
    refine bright_scheduleTag (bright_selectValue ?_ action)
    exact bright_ite (bright_querySource h) h
  | idle => exact h
  | tag => exact h

theorem bright_turnOther {s : State} (h : Bright s.menu) (id action : Byte) :
    Bright (turnOther s id action).menu := by
  unfold turnOther
  cases rotorToState id with
  | apply => exact h
  | param => exact bright_selectParam h action
  | _ =>
    refine bright_querySource (bright_selectValue ?_ action)
    exact h

theorem bright_start {s : State} (h : Bright s.menu) (id : Byte) : Bright (start s id).menu := by
  unfold start
  refine bright_ite h ?_
  dsimp only
  rw [sendMessage0_menu, modeSet_menu]
  show flagMaskBrightness &&& flagBrightness ≠ 0
  decide

theorem bright_setState {s : State} (h : Bright s.menu) (new : MenuState) :
    Bright (setState s new).menu := by
  unfold Bright
  rwa [(setState_values s new).1]

theorem bright_menuHandleRotor {s : State} (h : Bright s.menu) (id action : Byte) :
    Bright (menuHandleRotor s id action).menu := by
  have hstart : Bright (if s.menu.state = .idle then start s id else s).menu :=
    bright_ite (bright_start h id) h
  unfold menuHandleRotor
  refine bright_ite h (bright_ite ?_ ?_)
  · exact bright_turnSame h id action
  · exact bright_turnOther (bright_setState hstart (rotorToState id)) id action

theorem bright_receive {s : State} (h : Bright s.menu) (m : Message) :
    Bright (receive s m).menu := by
  rw [receive_menu]
  split_ifs
  · exact h
  · unfold menuParameterValue
    split
    · exact h
    · exact bright_or h _
  · exact h

theorem bright_closed {m : Menu} (h : Closed m) : Bright m := by
  unfold Bright
  rw [h.2]
  decide

/-! ### Runs -/

/-- The last picture of an open menu is that of the menu, or one of `watch.c`. -/
structure ScreenSound (t : Screen) : Prop where
  current : t.state.menu.state ≠ .idle → t.state.menu.state ≠ .tag →
    (∃ buf, t.picture = some (.watch buf)) ∨ t.picture = (menuRender t.state.menu).map .menu
  watch : ∀ buf, t.picture = some (.watch buf) → buf = watchRender t.watch
  bright : Bright t.state.menu

theorem screenStart_sound : ScreenSound screenStart where
  current hopen := absurd rfl hopen
  watch _ h := nomatch h
  bright := show flagMaskBrightness &&& flagBrightness ≠ 0 by decide

/-- A step of the menu that renders the picture of what it comes to, or leaves it. -/
theorem ScreenSound.menu {t : Screen} (h : ScreenSound t) {e : LoopEvent}
    (hreports : reports t e = (t.watch, none)) (hbright : Bright (loopStep t.state e).menu)
    (hmenu : (loopStep t.state e).menu.state ≠ .idle → (loopStep t.state e).menu.state ≠ .tag →
      renders t.state e = menuRender (loopStep t.state e).menu ∨
        renders t.state e = none ∧ t.state.menu.state = (loopStep t.state e).menu.state ∧
          menuRender (loopStep t.state e).menu = menuRender t.state.menu) :
    ScreenSound (screenStep t e) := by
  have hpicture : (screenStep t e).picture = ((renders t.state e).map .menu).or t.picture := by
    unfold screenStep
    rw [hreports]
    rfl
  have hwatch : (screenStep t e).watch = t.watch := congrArg Prod.fst hreports
  refine ⟨fun hopen htag => ?_, fun buf hbuf => ?_, hbright⟩
  · rw [hpicture]
    rcases hmenu hopen htag with hrenders | ⟨hnone, hstate, hsame⟩
    · obtain ⟨buf, hbuf⟩ : ∃ buf, menuRender (loopStep t.state e).menu = some buf :=
        ⟨_, if_neg hopen⟩
      rw [hrenders]
      refine .inr ?_
      rw [show (screenStep t e).state = loopStep t.state e from rfl, hbuf]
      rfl
    · rw [hnone, show (screenStep t e).state = loopStep t.state e from rfl, hsame]
      exact h.current (hstate ▸ hopen) (hstate ▸ htag)
  · rw [hpicture] at hbuf
    rw [hwatch]
    cases hr : renders t.state e with
    | none =>
      rw [hr] at hbuf
      exact h.watch buf hbuf
    | some buf' =>
      rw [hr] at hbuf
      cases hbuf

theorem ScreenSound.still {t : Screen} (h : ScreenSound t) {e : LoopEvent}
    (hreports : reports t e = (t.watch, none)) (hrenders : renders t.state e = none)
    (hstill : MenuStill t.state (loopStep t.state e)) : ScreenSound (screenStep t e) := by
  rcases hstill with hsame | hclosed
  · refine h.menu hreports (by rw [hsame]; exact h.bright) fun _ _ => .inr ⟨hrenders, ?_, ?_⟩
    · rw [hsame]
    · rw [hsame]
  · exact h.menu hreports (bright_closed hclosed) fun hopen => absurd hclosed.1 hopen

theorem ScreenSound.rotor {t : Screen} (h : ScreenSound t) (id action : Byte) :
    ScreenSound (screenStep t (.hold (.rotor id action))) := by
  have hmenu : loopStep t.state (.hold (.rotor id action)) = menuHandleRotor t.state id action :=
    rfl
  have hrenders : renders t.state (.hold (.rotor id action)) = rotorPicture t.state id action :=
    rfl
  refine h.menu rfl (bright_menuHandleRotor h.bright id action) fun hopen _ => .inl ?_
  rw [hmenu] at hopen ⊢
  rw [hrenders]
  unfold rotorPicture
  by_cases hearly : rotorToState id = .apply ∧ t.state.menu.state = .idle
  · have hsame : menuHandleRotor t.state id action = t.state := if_pos hearly
    rw [hsame] at hopen
    exact absurd hearly.2 hopen
  · rw [if_neg hearly]

/-- `menu_parameter_value` renders what it changes. -/
theorem valuePicture_cases (s : State) (parameter value min max : Byte) :
    valuePicture s parameter value min max =
        menuRender (menuParameterValue s parameter value min max).1.menu ∨
      valuePicture s parameter value min max = none ∧
        menuRender (menuParameterValue s parameter value min max).1.menu = menuRender s.menu := by
  have hparam : (menuParameterValue s parameter value min max).1.menu.paramId = s.menu.paramId :=
    congrArg Cursor.paramId (menuParameterValue_cursor s parameter value min max)
  unfold valuePicture
  by_cases hthree : parameter ≠ parameterVolume ∧ parameter ≠ parameterTrack ∧
      parameter ≠ parameterPlaylist
  · have hsame : (menuParameterValue s parameter value min max).1.menu = s.menu := by
      unfold menuParameterValue
      rw [if_pos hthree]
    exact .inr ⟨if_pos hthree, by rw [hsame]⟩
  · rw [if_neg hthree]
    dsimp only
    by_cases hown : paramOfParameter parameter = s.menu.paramId
    · exact .inl (if_pos (hown.trans hparam.symm))
    · exact .inr ⟨if_neg fun heq => hown (heq.trans hparam), menuRender_other value min max hown⟩

theorem ScreenSound.message {t : Screen} (h : ScreenSound t) (m : Message)
    (fits : m.payload.length ≤ inSize) :
    ScreenSound (screenStep t (.hold (.message m fits))) := by
  have hmenu : loopStep t.state (.hold (.message m fits)) = receive t.state m := rfl
  have hrenders : renders t.state (.hold (.message m fits)) =
      decodePicture { t.state with decoder := arrive t.state.decoder m } := rfl
  refine h.menu rfl (bright_receive h.bright m) fun _ htag => ?_
  rw [hmenu, receive_menu] at htag ⊢
  rw [hrenders]
  unfold decodePicture
  by_cases hname : IsNamed t.state m
  · rw [if_pos hname] at htag
    exact absurd rfl htag
  · rw [if_neg hname]
    by_cases hnumber : m.id = msgIdQueryNumber
    · have harrived : (arrive t.state.decoder m).msgId = msgIdQueryNumber := hnumber
      let a : State := { t.state with decoder := arrive t.state.decoder m }
      have hsame : t.state.menu = a.menu := rfl
      rw [if_pos hnumber, if_pos harrived, menuParameterValue_congr hsame]
      refine (valuePicture_cases a _ _ _ _).imp id fun hother => ⟨hother.1, ?_, hother.2⟩
      exact (congrArg Cursor.state (menuParameterValue_cursor a _ _ _ _)).symm
    · have harrived : ¬ (arrive t.state.decoder m).msgId = msgIdQueryNumber := hnumber
      rw [if_neg hnumber, if_neg harrived]
      exact .inr ⟨rfl, rfl, rfl⟩

/-- `twi_try` leaves the menu alone, and its callback may render over it. -/
theorem ScreenSound.twiTry {t : Screen} (h : ScreenSound t) :
    ScreenSound (screenStep t .twiTry) := by
  have hreports : reports t .twiTry = watchCallback t.watch (AvrTwi.twiTry t.state.twi).2 := rfl
  rcases watchCallback_cases t.watch (AvrTwi.twiTry t.state.twi).2 with hnone | ⟨w, hsome⟩
  · exact h.still (hreports.trans hnone) rfl (.inl (twi_menu t.state _))
  · have hnow := hreports.trans hsome
    have hpicture : (screenStep t .twiTry).picture = some (.watch (watchRender w)) := by
      unfold screenStep
      rw [hnow]
      rfl
    have hwatch : (screenStep t .twiTry).watch = w := congrArg Prod.fst hnow
    refine ⟨fun _ _ => .inl ⟨_, hpicture⟩, fun buf hbuf => ?_, h.bright⟩
    rw [hpicture] at hbuf
    rw [hwatch]
    cases hbuf
    rfl

theorem screenSound_step (t : Screen) (e : LoopEvent) (h : ScreenSound t) :
    ScreenSound (screenStep t e) := by
  cases e with
  | hold e =>
    cases e with
    | rotor id action => exact h.rotor id action
    | message m fits => exact h.message m fits
    | _ => exact h.still rfl rfl (still_loopStep t.state nofun nofun)
  | twiTry => exact h.twiTry
  | _ => exact h.still rfl rfl (still_loopStep t.state nofun nofun)

/-- An open menu has been given a picture, but for the name scrolling over it. The last
one reads as the menu is, or else as the time in `buffer`. -/
structure ShowsCurrent (t : Screen) : Prop where
  given : t.state.menu.state ≠ .idle → t.state.menu.state ≠ .tag → t.picture ≠ none
  menu : t.state.menu.state ≠ .idle → t.state.menu.state ≠ .tag → ∀ buf,
    t.picture = some (.menu buf) → ∀ (shiftData : Buffer) (port : Byte),
      readMenu (onDisplays shiftData port buf) = shown t.state.menu
  watch : ∀ buf, t.picture = some (.watch buf) → ∀ (shiftData : Buffer) (port : Byte),
    readClock (onDisplays shiftData port buf) = some t.watch.time

theorem ScreenSound.shows {t : Screen} (h : ScreenSound t) : ShowsCurrent t := by
  refine ⟨fun hopen htag => ?_, fun hopen htag buf hbuf => ?_, fun buf hbuf shiftData port => ?_⟩
  · obtain ⟨buf, hrender, -⟩ := menu_reads hopen
    rcases h.current hopen htag with ⟨buf, hwatch⟩ | hmenu
    · rw [hwatch]
      exact Option.some_ne_none _
    · rw [hmenu, hrender]
      exact Option.some_ne_none _
  · obtain ⟨buf', hrender, hreads⟩ := menu_reads hopen
    rcases h.current hopen htag with ⟨buf', hwatch⟩ | hmenu
    · rw [hwatch] at hbuf
      cases hbuf
    · rw [hmenu, hrender] at hbuf
      cases hbuf
      exact hreads
  · rw [h.watch buf hbuf]
    exact clock_reads t.watch shiftData port

/-- In every run of the main loop, what was given to the display last reads as the menu
is (the parameter, its value and the one chosen) or as the time last read. -/
theorem picture_current (es : List LoopEvent) :
    Throughout screenStep ShowsCurrent screenStart es := by
  rw [throughout_iff_start]
  intro ds _
  exact (run_keeps screenSound_step ds screenStart_sound).shows

end LedServer.Avr
