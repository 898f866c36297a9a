import LedServer.AvrSignals

set_option autoImplicit false

/-!
# The playlist the menu selects

PARAM_SET carries the distance from the value the Pi has last reported to the
one that is selected.
-/
namespace LedServer.Avr
open AvrRing

/-- PARAM_SET for the playlist. -/
def isAim (m : Message) : Bool :=
  m.id = msgIdParamSet && m.payload.head? = some parameterPlaylist

theorem isAim_other {id : Byte} (h : id ≠ msgIdParamSet) :
    ∀ m : Message, m.id = id → isAim m = false := by
  rintro m rfl
  simp [isAim, h]

/-! ### What is sent -/

theorem silent_sendMessage0 (s : State) {msgId : Byte} (h : msgId ≠ msgIdParamSet) :
    Tells isAim s.link (sendMessage0 s msgId).link [] :=
  tells_send_silent s (m := ⟨serialIdToIgnore, msgId, []⟩) rfl (by simp) (isAim_other h _ rfl)

theorem silent_paramSet (s : State) {parameter : Byte} (sign abs : Byte)
    (h : parameter ≠ parameterPlaylist) :
    Tells isAim s.link (sendMessage3 s parameter sign abs).link [] :=
  tells_send_silent s (m := paramSetMessage parameter sign abs) rfl (by simp [paramSetMessage])
    (by simp [isAim, paramSetMessage, h])

theorem silent_setState (s : State) (new : MenuState) :
    Tells isAim s.link (setState s new).link [] := by
  have henter : Tells isAim s.link (modeSet (sendMessage0
      { s with flush := flushShiftDrainStop s.flush } msgIdResume) .radio).link [] :=
    (silent_sendMessage0 { s with flush := flushShiftDrainStop s.flush } (by decide)).before
      (tells_modeSet _ _)
  have hleave : Tells isAim s.link (modeSet { sendMessage0 s msgIdSuspend with
      flush := flushShiftDrainStart (sendMessage0 s msgIdSuspend).flush } .menu).link [] :=
    (silent_sendMessage0 s (by decide)).before (tells_modeSet { sendMessage0 s msgIdSuspend with
      flush := flushShiftDrainStart (sendMessage0 s msgIdSuspend).flush } .menu)
  unfold setState
  exact tells_ite (.refl _) (tells_ite hleave (tells_ite henter (.refl _)))

theorem silent_start (s : State) (rotorId : Byte) :
    Tells isAim s.link (start s rotorId).link [] := by
  let a : State := { reset s with menu := { (reset s).menu with backupMode := s.currentMode } }
  unfold start
  apply tells_ite (.refl _)
  have hid : msgIdSuspend ≠ msgIdParamSet := by decide
  exact (silent_sendMessage0 (modeSet a .menu) hid).after (tells_modeSet a .menu)

theorem silent_menuHandleRotor (s : State) (id action : Byte) :
    Tells isAim s.link (menuHandleRotor s id action).link [] := by
  have hquery : ∀ m : Message, m.id = msgIdQueryNumber → isAim m = false := isAim_other (by decide)
  have hopen : Tells isAim s.link (if s.menu.state = .idle then start s id else s).link [] :=
    tells_ite (silent_start s id) (.refl _)
  unfold menuHandleRotor
  refine tells_ite (.refl _) (tells_ite ?_ ?_)
  · exact (tells_turnSame s id action hquery).before (tells_schedule _ _)
  · exact (hopen.before (silent_setState _ _)).before
      ((tells_turnOther _ id action hquery).before (tells_schedule _ _))

/-- The message of `stop` for the playlist, if there is one. -/
def stopAim (s : State) : List Message :=
  let s := if s.menu.state = .tag then setState s .value else s
  let signAbs := getSignAbs (s.menu.paramOld .playlist) (s.menu.paramNew .playlist)
  if stopParam s.menu = paramPlaylist ∧
      s.menu.paramFlag &&& flagMaskPlaylist = flagMaskPlaylist ∧ signAbs.2 ≠ 0 then
    spoken s (paramSetMessage parameterPlaylist signAbs.1 signAbs.2)
  else []

theorem tells_playlist (s : State) (sign abs : Byte) :
    Tells isAim s.link (sendMessage3 s parameterPlaylist sign abs).link
      (spoken s (paramSetMessage parameterPlaylist sign abs)) := by
  have h := tells_sendMessage3 (p := isAim) s parameterPlaylist sign abs
  have hall : (spoken s (paramSetMessage parameterPlaylist sign abs)).filter isAim =
      spoken s (paramSetMessage parameterPlaylist sign abs) := by
    unfold spoken
    split <;> rfl
  rwa [hall] at h

theorem tells_action (s : State) (param : Byte) :
    Tells isAim s.link (stopAction s param).link
      (if param = paramPlaylist ∧ s.menu.paramFlag &&& flagMaskPlaylist = flagMaskPlaylist ∧
          (getSignAbs (s.menu.paramOld .playlist) (s.menu.paramNew .playlist)).2 ≠ 0 then
        spoken s (paramSetMessage parameterPlaylist
          (getSignAbs (s.menu.paramOld .playlist) (s.menu.paramNew .playlist)).1
          (getSignAbs (s.menu.paramOld .playlist) (s.menu.paramNew .playlist)).2)
      else []) := by
  by_cases hlist : param = paramPlaylist
  · subst hlist
    have haction : stopAction s paramPlaylist =
        if s.menu.paramFlag &&& flagMaskPlaylist = flagMaskPlaylist then
          if (getSignAbs (s.menu.paramOld .playlist) (s.menu.paramNew .playlist)).2 ≠ 0 then
            sendMessage3 s parameterPlaylist
              (getSignAbs (s.menu.paramOld .playlist) (s.menu.paramNew .playlist)).1
              (getSignAbs (s.menu.paramOld .playlist) (s.menu.paramNew .playlist)).2
          else s
        else s := rfl
    rw [haction]
    by_cases hflag : s.menu.paramFlag &&& flagMaskPlaylist = flagMaskPlaylist
    · rw [if_pos hflag]
      by_cases habs : (getSignAbs (s.menu.paramOld .playlist) (s.menu.paramNew .playlist)).2 ≠ 0
      · rw [if_pos habs, if_pos ⟨rfl, hflag, habs⟩]
        exact tells_playlist s _ _
      · rw [if_neg habs, if_neg fun h => habs h.2.2]
        exact .refl _
    · rw [if_neg hflag, if_neg fun h => hflag h.2.1]
      exact .refl _
  · rw [if_neg fun h => hlist h.1]
    have stay : Tells isAim s.link s.link [] := .refl _
    have track : ∀ sign abs : Byte, Tells isAim s.link
        (sendMessage3 s parameterTrack sign abs).link [] :=
      fun sign abs => silent_paramSet s sign abs (by decide)
    have volume : ∀ sign abs : Byte, Tells isAim s.link
        (sendMessage3 s parameterVolume sign abs).link [] :=
      fun sign abs => silent_paramSet s sign abs (by decide)
    have ahead : ∀ sign abs : Byte, Tells isAim s.link
        (sendMessage3 s parameterGoAhead sign abs).link [] :=
      fun sign abs => silent_paramSet s sign abs (by decide)
    have off : ∀ a : Byte, Tells isAim s.link (sendMessage1 s msgIdPoweroff a).link [] :=
      fun a => tells_sendMessage1 s msgIdPoweroff a (isAim_other (by decide))
    have zero : Tells isAim s.link (sendMessage0 s msgIdReboot).link [] :=
      silent_sendMessage0 s (by decide)
    unfold stopAction
    dsimp only
    rw [if_neg (c := param = paramPlaylist) hlist]
    exact tells_ite (tells_ite stay stay) (tells_ite stay (tells_ite stay (tells_ite stay
      (tells_ite (track _ _) (tells_ite (ahead _ _)
      (tells_ite (track _ _) (tells_ite (ahead _ _) (tells_ite (tells_ite (track _ _) stay)
      (tells_ite (tells_ite (volume _ _) stay) (tells_ite (off _) (tells_ite (off _)
      (tells_ite (off _) (tells_ite stay (tells_ite zero stay))))))))))))))

theorem tells_stop_playlist (s : State) : Tells isAim s.link (stop s).link (stopAim s) := by
  let a := if s.menu.state = .tag then setState s .value else s
  have ha : Tells isAim s.link a.link [] := tells_ite (silent_setState s .value) (.refl _)
  have hclose : Tells isAim (stopAction a (stopParam a.menu)).link (stop s).link [] := by
    have hlink : (closing s).link = (stopAction a (stopParam a.menu)).link := modeSet_link _ _
    have hid : msgIdResume ≠ msgIdParamSet := by decide
    have hsend := silent_sendMessage0 (closing s) hid
    rw [hlink] at hsend
    exact hsend
  exact ((tells_action a (stopParam a.menu)).before hclose).after ha

/-- The PARAM_SETs for the playlist that a step puts into `write_buf`. -/
def aims (s : State) : HoldEvent → List Message
  | .expire id => if id = .menu ∧ s.timers.callback id ≠ none then stopAim s else []
  | _ => []

theorem silent_receive (s : State) (m : Message) : Tells isAim s.link (receive s m).link [] := by
  have hdone : (receive s m).link = (decode { s with decoder := arrive s.decoder m }).link := rfl
  rw [hdone]
  refine tells_decode { s with decoder := arrive s.decoder m } (isAim_other (by decide)) ?_
    fun _ => rfl
  intro _
  rw [menuParameterName_state]
  split
  · exact silent_setState (schedule (confirmed { s with decoder := arrive s.decoder m }) delayRead) .tag
  · exact .refl _

theorem tells_holdStep_playlist {s : State} (h : TableSound s.timers.callback) (e : HoldEvent) :
    Tells isAim s.link (holdStep s e).link (aims s e) := by
  cases e with
  | message m fits => exact silent_receive s m
  | exchange received => exact tells_exchange s received
  | postponeTry => exact tells_postponeTry s (isAim_other (by decide))
  | rotor id action => exact silent_menuHandleRotor s id action
  | expire id => exact tells_atExpire h id (tells_stop_playlist s) (isAim_other (by decide))
  | flushTick => exact tells_ite (.refl _) (.refl _)
  | heartbeatTick => exact tells_ite (tells_heartbeatVerify s) (.refl _)
  | int2 => exact tells_twi s _
  | int3 => exact tells_int3Vect s (isAim_other (by decide))

/-! ### The value it starts from -/

/-- The playlist the Pi has reported, if it has. -/
def baseOf (m : Menu) : Option Byte :=
  if m.paramFlag &&& flagPlaylist ≠ 0 then some (m.paramOld .playlist) else none

theorem baseOf_congr {m m' : Menu} (hf : m'.paramFlag = m.paramFlag)
    (ho : m'.paramOld = m.paramOld) : baseOf m' = baseOf m := by
  unfold baseOf
  rw [hf, ho]

theorem menu_ite {α : Type*} (part : Menu → α) {c : Prop} [Decidable c] {a b : State} {x : α}
    (ha : part a.menu = x) (hb : part b.menu = x) : part (if c then a else b).menu = x := by
  split
  · exact ha
  · exact hb

theorem enterState_values (m : Menu) (connected : Bool) (new : MenuState) :
    (enterState m connected new).paramFlag = m.paramFlag ∧
      (enterState m connected new).paramOld = m.paramOld ∧
      (enterState m connected new).paramNew = m.paramNew := by
  unfold enterState setParamRange
  dsimp only
  cases new <;> split_ifs <;> exact ⟨rfl, rfl, rfl⟩

@[simp] theorem sendMessage0_menu (s : State) (msgId : Byte) :
    (sendMessage0 s msgId).menu = s.menu := by
  unfold sendMessage0
  split <;> rfl

@[simp] theorem sendMessage1_menu (s : State) (msgId a : Byte) :
    (sendMessage1 s msgId a).menu = s.menu := by
  unfold sendMessage1
  split <;> rfl

@[simp] theorem sendMessage2_menu (s : State) (msgId a b : Byte) :
    (sendMessage2 s msgId a b).menu = s.menu := by
  unfold sendMessage2
  split <;> rfl

theorem setState_menu (s : State) (new : MenuState) :
    (setState s new).menu = s.menu ∨
      ∃ connected, (setState s new).menu = enterState s.menu connected new := by
  unfold setState
  by_cases hsame : s.menu.state = new
  · rw [if_pos hsame]
    exact .inl rfl
  rw [if_neg hsame]
  refine .inr ?_
  dsimp only
  by_cases htag : s.menu.state = .tag
  · rw [if_pos htag, modeSet_menu]
    exact ⟨_, by rw [sendMessage0_menu]⟩
  rw [if_neg htag]
  by_cases hnew : new = .tag
  · rw [if_pos hnew, modeSet_menu, sendMessage0_menu]
    exact ⟨_, rfl⟩
  · rw [if_neg hnew]
    exact ⟨_, rfl⟩

theorem setState_values (s : State) (new : MenuState) :
    (setState s new).menu.paramFlag = s.menu.paramFlag ∧
      (setState s new).menu.paramOld = s.menu.paramOld ∧
      (setState s new).menu.paramNew = s.menu.paramNew := by
  rcases setState_menu s new with h | ⟨connected, h⟩
  · rw [h]
    exact ⟨rfl, rfl, rfl⟩
  · rw [h]
    exact enterState_values s.menu connected new

theorem baseOf_setState (s : State) (new : MenuState) :
    baseOf (setState s new).menu = baseOf s.menu :=
  baseOf_congr (setState_values s new).1 (setState_values s new).2.1

theorem baseOf_menuReset (m : Menu) (brightness : Byte) : baseOf (menuReset m brightness) = none :=
  if_neg (show ¬ (flagMaskBrightness &&& flagPlaylist ≠ 0) by decide)

theorem baseOf_start (s : State) {rotorId : Byte} (h : rotorId ≠ rotorApply) :
    baseOf (start s rotorId).menu = none := by
  unfold start
  rw [if_neg h]
  dsimp only
  rw [sendMessage0_menu, modeSet_menu]
  exact baseOf_menuReset s.menu (flushBrightnessGet s.flush)

theorem flag_other (flags : Byte) {flag mask : Byte} (h : flag &&& mask = 0) :
    (flags ||| flag) &&& mask = flags &&& mask := by
  rw [BitVec.and_comm, BitVec.and_or_distrib_left, BitVec.and_comm mask flag, h, BitVec.and_comm]
  exact BitVec.or_zero

/-- Another flag, and another value. -/
theorem baseOf_other {m m' : Menu} {flag : Byte} (h : flag &&& flagPlaylist = 0)
    (hf : m'.paramFlag = m.paramFlag ||| flag)
    (ho : m'.paramOld .playlist = m.paramOld .playlist) : baseOf m' = baseOf m := by
  unfold baseOf
  rw [hf, ho, flag_other m.paramFlag h]

theorem baseOf_told {m : Menu} (flags : Byte) (hf : m.paramFlag = flags ||| flagPlaylist) :
    baseOf m = some (m.paramOld .playlist) := by
  apply if_pos
  rw [hf, BitVec.and_comm, BitVec.and_or_distrib_left]
  intro h
  have hand : flagPlaylist &&& flagPlaylist = 0 := (BitVec.or_eq_zero_iff.mp h).2
  exact absurd hand (by decide)

theorem baseOf_querySource (s : State) : baseOf (querySource s).menu = baseOf s.menu := by
  unfold querySource
  refine menu_ite baseOf rfl (menu_ite baseOf rfl ?_)
  dsimp only
  rw [sendMessage1_menu]
  refine baseOf_other ?_ rfl rfl
  split_ifs <;> decide

theorem baseOf_selectValue (m : Menu) (action : Byte) :
    baseOf (selectValue m action) = baseOf m := by
  unfold selectValue
  dsimp only
  split_ifs <;> rfl

theorem baseOf_selectParam (m : Menu) (action : Byte) :
    baseOf (selectParam m action) = baseOf m := by
  unfold selectParam
  split_ifs <;> rfl

theorem baseOf_scheduleTag (s : State) : baseOf (scheduleTag s).menu = baseOf s.menu := by
  unfold scheduleTag
  exact menu_ite baseOf rfl (menu_ite baseOf rfl rfl)

theorem baseOf_turnSame (s : State) (id action : Byte) :
    baseOf (turnSame s id action).menu = baseOf s.menu := by
  unfold turnSame
  cases s.menu.state with
  | apply => rfl
  | param => exact baseOf_selectParam s.menu action
  | value =>
    dsimp only
    rw [baseOf_scheduleTag, baseOf_selectValue]
    exact menu_ite baseOf (baseOf_querySource _) rfl
  | idle => rfl
  | tag => rfl

theorem baseOf_turnOther (s : State) (id action : Byte) :
    baseOf (turnOther s id action).menu = baseOf s.menu := by
  unfold turnOther
  cases rotorToState id with
  | apply => rfl
  | param => exact baseOf_selectParam s.menu action
  | _ =>
    dsimp only
    rw [baseOf_querySource, baseOf_selectValue]
    rfl

theorem baseOf_menuHandleRotor (s : State) (id action : Byte) :
    baseOf (menuHandleRotor s id action).menu =
      if s.menu.state = .idle ∧ rotorToState id ≠ .apply then none else baseOf s.menu := by
  have hsched : ∀ (s : State) (delay : Byte), (schedule s delay).menu = s.menu := fun _ _ => rfl
  unfold menuHandleRotor
  by_cases hidle : rotorToState id = .apply ∧ s.menu.state = .idle
  · rw [if_pos hidle, if_neg fun h => h.2 hidle.1]
  rw [if_neg hidle]
  by_cases hclosed : s.menu.state = .idle
  · have hopen : rotorToState id ≠ .apply := fun h => hidle ⟨h, hclosed⟩
    have hother : ¬ s.menu.state = rotorToState id :=
      fun h => (rotorToState_open id).1 (h.symm.trans hclosed)
    rw [if_neg hother, if_pos hclosed, hsched, baseOf_turnOther, baseOf_setState,
      baseOf_start s (rotorToState_apply hopen), if_pos ⟨hclosed, hopen⟩]
  · rw [if_neg (c := s.menu.state = .idle ∧ _) fun h => hclosed h.1]
    apply menu_ite baseOf
    · rw [hsched, baseOf_turnSame]
    · rw [if_neg hclosed, hsched, baseOf_turnOther, baseOf_setState]

theorem baseOf_menuParameterValue (s : State) (parameter value min max : Byte) :
    baseOf (menuParameterValue s parameter value min max).1.menu =
      if parameter = parameterPlaylist then some value else baseOf s.menu := by
  unfold menuParameterValue
  by_cases hother : parameter ≠ parameterVolume ∧ parameter ≠ parameterTrack ∧
      parameter ≠ parameterPlaylist
  · rw [if_pos hother, if_neg hother.2.2]
  rw [if_neg hother]
  have volume : flagVolume &&& flagPlaylist = 0 := by decide
  have track : flagTrack &&& flagPlaylist = 0 := by decide
  have hkept : ∀ id : ValueId, id ≠ .playlist →
      Function.update s.menu.paramOld id value .playlist = s.menu.paramOld .playlist :=
    fun id hid => Function.update_of_ne (Ne.symm hid) value s.menu.paramOld
  dsimp only
  by_cases hvolume : parameter = parameterVolume
  · subst hvolume
    rw [if_pos rfl, if_pos rfl, if_neg (by decide)]
    exact baseOf_other (m := s.menu) volume rfl (hkept .volume (by decide))
  by_cases htrack : parameter = parameterTrack
  · subst htrack
    rw [if_neg hvolume, if_pos rfl, if_neg hvolume, if_pos rfl, if_neg (by decide)]
    exact baseOf_other (m := s.menu) track rfl (hkept .track (by decide))
  · have hlist : parameter = parameterPlaylist := by
      by_contra h
      exact hother ⟨hvolume, htrack, h⟩
    rw [if_neg hvolume, if_neg htrack, if_neg hvolume, if_neg htrack, if_pos hlist]
    have hself := Function.update_self ValueId.playlist value s.menu.paramOld
    exact (baseOf_told s.menu.paramFlag rfl).trans (congrArg some hself)

theorem baseOf_menuParameterName (s : State) (parameter id : Byte) :
    baseOf (menuParameterName s parameter id).1.menu = baseOf s.menu := by
  rw [menuParameterName_state]
  exact menu_ite baseOf (baseOf_setState (schedule s delayRead) .tag) rfl

/-- A QUERY_NUMBER for the playlist. -/
def IsNumber (s : State) (m : Message) : Prop :=
  m.id = msgIdQueryNumber ∧ inByte (arrive s.decoder m) 0 = parameterPlaylist

instance (s : State) (m : Message) : Decidable (IsNumber s m) := inferInstanceAs (Decidable (_ ∧ _))

theorem baseOf_receive (s : State) (m : Message) :
    baseOf (receive s m).menu =
      if IsNumber s m then some (inByte (arrive s.decoder m) 1) else baseOf s.menu := by
  have hdone : (receive s m).menu = (decode { s with decoder := arrive s.decoder m }).menu := rfl
  have hreply : ∀ (a : State) (status msgId : Byte), (reply a status msgId).menu = a.menu :=
    fun _ _ _ => rfl
  have hother : ∀ {id : Byte}, (arrive s.decoder m).msgId = id → id ≠ msgIdQueryNumber →
      ¬ IsNumber s m := by
    rintro id rfl hne hnumber
    exact hne hnumber.1
  have hcase := decode_case { s with decoder := arrive s.decoder m }
  rw [hdone]
  generalize decode { s with decoder := arrive s.decoder m } = r at hcase ⊢
  cases hcase with
  | ledArray hid =>
    rw [if_neg (hother hid (by decide)), hreply]
    rfl
  | queryName hid status =>
    rw [if_neg (hother hid (by decide)), hreply, baseOf_menuParameterName]
    rfl
  | queryNumber hid status =>
    have hnumber : m.id = msgIdQueryNumber := hid
    rw [hreply, baseOf_menuParameterValue]
    simp only [IsNumber, hnumber, true_and]
    rfl
  | idle hid =>
    rw [if_neg (hother hid (by decide))]
    rfl
  | syncClock hid =>
    rw [if_neg (hother hid (by decide)), hreply]
    rfl
  | handshake hid =>
    rw [if_neg (hother hid (by decide)), modeSet_menu]
    rfl
  | unknown led name number idle clock shake =>
    rw [if_neg fun h => number h.1, hreply]
    rfl

theorem baseOf_stop (s : State) : baseOf (stop s).menu = none := baseOf_menuReset _ _

/-- The value that is there after a step. -/
def baseAfter (s : State) : HoldEvent → Option Byte
  | .message m _ =>
    if IsNumber s m then some (inByte (arrive s.decoder m) 1) else baseOf s.menu
  | .rotor id _ =>
    if s.menu.state = .idle ∧ rotorToState id ≠ .apply then none else baseOf s.menu
  | .expire id =>
    if id = .menu ∧ s.timers.callback id ≠ none then none else baseOf s.menu
  | _ => baseOf s.menu

theorem tagRequest_menu (s : State) : (tagRequest s).menu = s.menu := by
  unfold tagRequest
  dsimp only
  split_ifs <;> simp

/-- Of the entries only `menu` touches the menu when it runs out, by `stop`. -/
theorem atExpire_menu {α : Type*} (part : Menu → α) {stopped : α} {s : State}
    (h : TableSound s.timers.callback) (hstop : part (stop s).menu = stopped) (id : AtId) :
    part (atExpire s id).menu =
      if id = .menu ∧ s.timers.callback id ≠ none then stopped else part s.menu := by
  unfold atExpire
  cases hcb : s.timers.callback id with
  | none => rw [if_neg (by simp)]
  | some cb =>
    have hcb' : cb = id.owner := h id cb hcb
    subst hcb'
    have hrun : part (runAtCallback s id.owner).menu =
        if id = .menu ∧ some id.owner ≠ none then stopped else part s.menu := by
      cases id with
      | boot => rfl
      | menu => exact hstop
      | menuTag => exact congrArg part (tagRequest_menu s)
      | spi => rfl
    exact menu_ite part hrun hrun

theorem baseOf_atExpire {s : State} (h : TableSound s.timers.callback) (id : AtId) :
    baseOf (atExpire s id).menu =
      if id = .menu ∧ s.timers.callback id ≠ none then none else baseOf s.menu :=
  atExpire_menu baseOf h (baseOf_stop s) id

theorem heartbeatVerify_menu {s : State} (h : Wired s) :
    (heartbeatVerify s).menu = s.menu := by
  unfold heartbeatVerify
  dsimp only
  split
  · rcases h.report with hr | hr
    · rw [hr]
      rfl
    · rw [hr]
      exact modeSet_menu _ .watch
  · split
    · rcases h.provoke with hp | hp <;> rw [hp] <;> rfl
    · rfl

theorem twi_menu (s : State) (t : AvrTwi.Twi) : ({ s with twi := t } : State).menu = s.menu := rfl

theorem holdStep_base {s : State} (h : Wired s) (e : HoldEvent) :
    baseOf (holdStep s e).menu = baseAfter s e := by
  cases e with
  | message m fits => exact baseOf_receive s m
  | rotor id action => exact baseOf_menuHandleRotor s id action
  | expire id => exact baseOf_atExpire h.table id
  | flushTick => exact menu_ite baseOf rfl rfl
  | heartbeatTick => exact menu_ite baseOf (congrArg baseOf (heartbeatVerify_menu h)) rfl
  | int3 => rfl
  | exchange received => rfl
  | postponeTry => rfl
  | int2 => exact congrArg baseOf (twi_menu s _)

/-- A closed menu is opened by a knob, or by a name. -/
theorem holdStep_opens {s : State} (h : Wired s) (hs : s.menu.state = .idle) (e : HoldEvent)
    (ho : (holdStep s e).menu.state ≠ .idle) :
    (∃ id action, e = .rotor id action ∧ rotorToState id ≠ .apply) ∨
      ∃ m fits, e = .message m fits ∧ OpensTag s m := by
  have hsame : ∀ {s' : State}, s'.menu = s.menu → ¬ s'.menu.state ≠ .idle := by
    intro s' he hne
    rw [he] at hne
    exact hne hs
  have hstate : (panelOf s).state = .idle := hs
  cases e with
  | message m fits =>
    refine .inr ⟨m, fits, rfl, ?_⟩
    have hpanel : (receive s m).menu.state = (panelOf (receive s m)).state := rfl
    have hopen : (receive s m).menu.state ≠ .idle := ho
    rw [hpanel, panelOf_receive] at hopen
    by_cases hled : m.id = msgIdLedArray
    · rw [if_pos hled] at hopen
      exact absurd hstate hopen
    rw [if_neg hled] at hopen
    by_cases hname : m.id = msgIdQueryName ∧
        NameMatches s.menu (inByte (arrive s.decoder m) 0) (inByte (arrive s.decoder m) 1)
    · refine ⟨hname.1, hname.2, ?_⟩
      rw [hs]
      decide
    · rw [if_neg hname] at hopen
      refine absurd ?_ hopen
      split <;> exact hstate
  | rotor id action =>
    refine .inl ⟨id, action, rfl, fun happly => ?_⟩
    have hstay : menuHandleRotor s id action = s := by
      unfold menuHandleRotor
      exact if_pos ⟨happly, hs⟩
    have hmenu : (menuHandleRotor s id action).menu = s.menu := by rw [hstay]
    exact hsame hmenu ho
  | expire id =>
    have hpanel := congrArg Panel.state (panelOf_atExpire h.table id)
    refine absurd (hpanel.trans ?_) ho
    split
    · rfl
    · exact hs
  | flushTick =>
    refine absurd ho (hsame ?_)
    unfold holdStep
    dsimp only
    split <;> rfl
  | heartbeatTick =>
    refine absurd ho (hsame ?_)
    unfold holdStep
    dsimp only
    split
    · exact heartbeatVerify_menu h
    · rfl
  | int3 => exact absurd ho (hsame rfl)
  | exchange received => exact absurd ho (hsame rfl)
  | postponeTry => exact absurd ho (hsame rfl)
  | int2 => exact absurd ho (hsame (twi_menu s _))

/-- PARAM_SET is sent over an open menu to which the Pi has told the playlist. -/
theorem stopAim_cases (s : State) :
    stopAim s = [] ∨ (stopAim s = [paramSetMessage parameterPlaylist
        (getSignAbs (s.menu.paramOld .playlist) (s.menu.paramNew .playlist)).1
        (getSignAbs (s.menu.paramOld .playlist) (s.menu.paramNew .playlist)).2] ∧
      s.menu.state ≠ .idle ∧ baseOf s.menu = some (s.menu.paramOld .playlist)) := by
  let a := if s.menu.state = .tag then setState s .value else s
  have hvalues : a.menu.paramFlag = s.menu.paramFlag ∧ a.menu.paramOld = s.menu.paramOld ∧
      a.menu.paramNew = s.menu.paramNew := by
    unfold a
    split
    · exact setState_values s .value
    · exact ⟨rfl, rfl, rfl⟩
  obtain ⟨hf, ho, hn⟩ := hvalues
  have hstop : stopAim s = if stopParam a.menu = paramPlaylist ∧
      a.menu.paramFlag &&& flagMaskPlaylist = flagMaskPlaylist ∧
      (getSignAbs (a.menu.paramOld .playlist) (a.menu.paramNew .playlist)).2 ≠ 0 then
    spoken a (paramSetMessage parameterPlaylist
      (getSignAbs (a.menu.paramOld .playlist) (a.menu.paramNew .playlist)).1
      (getSignAbs (a.menu.paramOld .playlist) (a.menu.paramNew .playlist)).2) else [] := rfl
  rw [hstop, hf, ho, hn]
  split
  · rename_i hsends
    obtain ⟨hparam, hflag, -⟩ := hsends
    have hopen : s.menu.state ≠ .idle := by
      intro hidle
      have ha : a = s := if_neg (by rw [hidle]; decide)
      have hcancel : stopParam s.menu = paramCancel := if_pos (.inl hidle)
      rw [ha, hcancel] at hparam
      exact absurd hparam (by decide)
    have hbase : baseOf s.menu = some (s.menu.paramOld .playlist) := by
      apply if_pos
      have hmask : flagPlaylist = flagMaskPlaylist &&& flagPlaylist := by decide
      rw [hmask, ← BitVec.and_assoc, hflag]
      decide
    unfold spoken
    split
    · exact .inr ⟨rfl, hopen, hbase⟩
    · exact .inl rfl
  · exact .inl rfl

theorem aims_cases (s : State) (e : HoldEvent) :
    aims s e = [] ∨ (aims s e = [paramSetMessage parameterPlaylist
        (getSignAbs (s.menu.paramOld .playlist) (s.menu.paramNew .playlist)).1
        (getSignAbs (s.menu.paramOld .playlist) (s.menu.paramNew .playlist)).2] ∧
      s.menu.state ≠ .idle ∧ baseOf s.menu = some (s.menu.paramOld .playlist) ∧
      baseAfter s e = none) := by
  cases e with
  | expire id =>
    have haims : aims s (.expire id) =
        if id = .menu ∧ s.timers.callback id ≠ none then stopAim s else [] := rfl
    have hafter : baseAfter s (.expire id) =
        if id = .menu ∧ s.timers.callback id ≠ none then none else baseOf s.menu := rfl
    rw [haims, hafter]
    by_cases hmenu : id = .menu ∧ s.timers.callback id ≠ none
    · rw [if_pos hmenu, if_pos hmenu]
      exact (stopAim_cases s).imp_right fun ⟨hs, ho, hb⟩ => ⟨hs, ho, hb, rfl⟩
    · rw [if_neg hmenu]
      exact .inl rfl
  | _ => exact .inl rfl

end LedServer.Avr
