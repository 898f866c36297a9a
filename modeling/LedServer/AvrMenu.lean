import LedServer.AvrMode

set_option autoImplicit false

/-! # `menu.c` without the rendering -/
namespace LedServer.Avr

def delayApply : Byte := 1
def delayRead : Byte := 8
def delaySelect : Byte := 5
def delayTag : Byte := 2

def rotorPlaylist : Byte := 0
def rotorParam : Byte := 1
def rotorTrack : Byte := 2
def rotorVolume : Byte := 3
def rotorApply : Byte := 4
def rotorClockwise : Byte := 5
def rotorCounterClockwise : Byte := 6

def flagBrightness : Byte := 0x01
def flagBrightnessSent : Byte := 0x02
def flagPlaylist : Byte := 0x04
def flagPlaylistSent : Byte := 0x08
def flagTrack : Byte := 0x10
def flagTrackSent : Byte := 0x20
def flagVolume : Byte := 0x40
def flagVolumeSent : Byte := 0x80

def flagMaskBrightness : Byte := flagBrightness ||| flagBrightnessSent
def flagMaskPlaylist : Byte := flagPlaylist ||| flagPlaylistSent
def flagMaskTrack : Byte := flagTrack ||| flagTrackSent
def flagMaskVolume : Byte := flagVolume ||| flagVolumeSent

def paramTrack : Byte := 0
def paramVolume : Byte := 1
def paramPlaylist : Byte := 2
def paramPowerOff : Byte := 3
def paramPowerOff15 : Byte := 4
def paramPowerOff30 : Byte := 5
def paramBrightnessMin : Byte := 6
def paramBrightnessMiddle : Byte := 7
def paramBrightnessMax : Byte := 8
def paramNext : Byte := 9
def paramPrevious : Byte := 10
def paramStop : Byte := 11
def paramPlay : Byte := 12
def paramReboot : Byte := 13
def paramBrightness : Byte := 14
def paramPowerOn : Byte := 15
def paramCancel : Byte := 16
def paramApply : Byte := 17

def paramListStart : Byte := paramPowerOff
def paramListFinish : Byte := paramReboot
def paramWatchStart : Byte := paramBrightness
def paramWatchFinish : Byte := paramBrightness
def paramOnStart : Byte := paramPowerOn
def paramOnFinish : Byte := paramPowerOn
def paramApplyStart : Byte := paramCancel
def paramApplyFinish : Byte := paramApply

/-- The values before `menu_init`. -/
def menuPower : Menu where
  backupMode := .menu
  paramFlag := 0
  paramMax _ := 0
  paramMin _ := 0
  paramOld _ := 0
  paramNew _ := 0
  paramId := paramWatchStart
  paramIdMin := paramWatchStart
  paramIdMax := paramWatchFinish
  secondaryParam := paramCancel
  state := .idle
  tagParam := paramCancel
  tagValue := 0

def sendMessage0 (s : State) (msgId : Byte) : State :=
  if s.isConnected then { s with link := encodeMsg0 s.link msgId serialIdToIgnore } else s

def sendMessage1 (s : State) (msgId payload1 : Byte) : State :=
  if s.isConnected then { s with link := encodeMsg1 s.link msgId serialIdToIgnore payload1 } else s

def sendMessage2 (s : State) (msgId payload1 payload2 : Byte) : State :=
  if s.isConnected then
    { s with link := encodeMsg2 s.link msgId serialIdToIgnore payload1 payload2 }
  else s

def sendMessage3 (s : State) (parameter sign abs : Byte) : State :=
  if s.isConnected then
    { s with link := encodeMsg3 s.link msgIdParamSet serialIdToIgnore parameter sign abs }
  else s

def querySource (s : State) : State :=
  let paramId := s.menu.paramId
  if paramId ≠ paramTrack ∧ paramId ≠ paramVolume ∧ paramId ≠ paramPlaylist then s
  else
    let mask := if paramId = paramTrack then flagMaskTrack
      else if paramId = paramVolume then flagMaskVolume else flagMaskPlaylist
    if s.menu.paramFlag &&& mask ≠ 0 then s
    else
      let msgBody := if paramId = paramTrack then parameterTrack
        else if paramId = paramVolume then parameterVolume else parameterPlaylist
      let s := sendMessage1 s msgIdQueryNumber msgBody
      let sent := if paramId = paramTrack then flagTrackSent
        else if paramId = paramVolume then flagVolumeSent else flagPlaylistSent
      { s with menu := { s.menu with paramFlag := s.menu.paramFlag ||| sent } }

def setParamRange (m : Menu) (isConnected : Bool) (newState : MenuState) : Menu :=
  let m := match newState with
    | .apply => { m with paramIdMin := paramApplyStart, paramIdMax := paramApplyFinish }
    | .param | .value =>
      { m with
        paramIdMin := if isConnected then paramListStart else paramOnStart
        paramIdMax := if isConnected then paramListFinish else paramOnFinish }
    | _ => m
  if newState ≠ .value then { m with paramId := m.paramIdMin } else m

/-- The last part of `set_state`: the range of parameters and the state. -/
def enterState (m : Menu) (isConnected : Bool) (newState : MenuState) : Menu :=
  let m :=
    if (m.state = .idle ∨ m.state = .apply) ∧ (newState = .param ∨ newState = .value) then
      setParamRange m isConnected newState
    else if (m.state = .param ∨ m.state = .value) ∧ newState = .apply then
      setParamRange { m with secondaryParam := m.paramId } isConnected newState
    else m
  { m with state := newState }

def setState (s : State) (newState : MenuState) : State :=
  if s.menu.state = newState then s
  else
    let s :=
      if s.menu.state = .tag then
        let s := sendMessage0 s msgIdSuspend
        let s := { s with flush := flushShiftDrainStart s.flush }
        modeSet s .menu
      else if newState = .tag then
        let s := { s with flush := flushShiftDrainStop s.flush }
        let s := sendMessage0 s msgIdResume
        modeSet s .radio
      else s
    { s with menu := enterState s.menu s.isConnected newState }

/-- `VALUE_BRIGHTNESS` gets the first value, the other three the second. -/
def resetValues (brightness other : Byte) : ValueId → Byte
  | .brightness => brightness
  | _ => other

/-- `reset`, given `flush_brightness_get ()`. -/
def menuReset (m : Menu) (brightness : Byte) : Menu :=
  { m with
    backupMode := .menu
    paramMax := resetValues 0xF 0
    paramMin := resetValues 0 0
    paramOld := resetValues brightness 0
    paramNew := resetValues brightness 0
    paramFlag := flagMaskBrightness
    paramId := paramTrack
    secondaryParam := paramTrack
    state := .idle
    tagParam := paramTrack
    tagValue := 0 }

def reset (s : State) : State := { s with menu := menuReset s.menu (flushBrightnessGet s.flush) }

/-- Sign and absolute value. -/
def getSignAbs (src dst : Byte) : Byte × Byte :=
  if src = dst then (parameterPositive, 0)
  else if src < dst then (parameterPositive, dst - src)
  else (parameterNegative, src - dst)

def start (s : State) (rotorId : Byte) : State :=
  if rotorId = rotorApply then s
  else
    let s := reset s
    let s := { s with menu := { s.menu with backupMode := s.currentMode } }
    let s := modeSet s .menu
    let s := sendMessage0 s msgIdSuspend
    { s with flush := flushShiftDrainStart s.flush }

def setBrightness (s : State) (bNess : Byte) : State :=
  { s with flush := flushBrightnessSet s.flush bNess }

/-- The parameter `stop` acts on. -/
def stopParam (m : Menu) : Byte :=
  if m.state = .idle ∨ (m.state = .apply ∧ m.paramId = paramCancel) then paramCancel
  else if m.state = .apply then m.secondaryParam
  else m.paramId

/-- The `switch` of `stop`. -/
def stopAction (s : State) (param : Byte) : State :=
  let m := s.menu
  if param = paramBrightness then
    if m.paramOld .brightness ≠ m.paramNew .brightness then
      setBrightness s (m.paramNew .brightness)
    else s
  else if param = paramBrightnessMin then setBrightness s flushBrightnessMin
  else if param = paramBrightnessMiddle then setBrightness s flushBrightnessMiddle
  else if param = paramBrightnessMax then setBrightness s flushBrightnessMax
  else if param = paramNext then sendMessage3 s parameterTrack parameterPositive 1
  else if param = paramPlay then
    sendMessage3 s parameterGoAhead parameterPositive parameterPositive
  else if param = paramPlaylist then
    if m.paramFlag &&& flagMaskPlaylist = flagMaskPlaylist then
      let signAbs := getSignAbs (m.paramOld .playlist) (m.paramNew .playlist)
      if signAbs.2 ≠ 0 then sendMessage3 s parameterPlaylist signAbs.1 signAbs.2 else s
    else s
  else if param = paramPrevious then sendMessage3 s parameterTrack parameterNegative 1
  else if param = paramStop then
    sendMessage3 s parameterGoAhead parameterNegative parameterNegative
  else if param = paramTrack then
    if m.paramFlag &&& flagMaskTrack = flagMaskTrack then
      let signAbs := getSignAbs (m.paramOld .track) (m.paramNew .track)
      sendMessage3 s parameterTrack signAbs.1 signAbs.2
    else s
  else if param = paramVolume then
    if m.paramFlag &&& flagMaskVolume = flagMaskVolume then
      let signAbs := getSignAbs (m.paramOld .volume) (m.paramNew .volume)
      sendMessage3 s parameterVolume signAbs.1 signAbs.2
    else s
  else if param = paramPowerOff then sendMessage1 s msgIdPoweroff 0
  else if param = paramPowerOff15 then sendMessage1 s msgIdPoweroff 15
  else if param = paramPowerOff30 then sendMessage1 s msgIdPoweroff 30
  else if param = paramPowerOn then bootPi s
  else if param = paramReboot then sendMessage0 s msgIdReboot
  -- `PARAM_CANCEL` and the default
  else s

/-- What `stop` does for a parameter is one of these. -/
theorem stopAction_cases {P : State → Prop} (s : State) (stay : P s)
    (brightness : ∀ bNess, P (setBrightness s bNess))
    (paramSet : ∀ parameter sign abs, P (sendMessage3 s parameter sign abs))
    (poweroff : ∀ delay, P (sendMessage1 s msgIdPoweroff delay))
    (reboot : P (sendMessage0 s msgIdReboot)) (boot : P (bootPi s)) (param : Byte) :
    P (stopAction s param) := by
  have choose : ∀ {p : Prop} [Decidable p] {a b : State}, P a → P b → P (if p then a else b) := by
    intro p _ a b ha hb
    split
    · exact ha
    · exact hb
  unfold stopAction
  exact choose (choose (brightness _) stay) (choose (brightness _) (choose (brightness _)
    (choose (brightness _) (choose (paramSet _ _ _) (choose (paramSet _ _ _)
    (choose (choose (choose (paramSet _ _ _) stay) stay) (choose (paramSet _ _ _)
    (choose (paramSet _ _ _) (choose (choose (paramSet _ _ _) stay)
    (choose (choose (paramSet _ _ _) stay) (choose (poweroff _) (choose (poweroff _)
    (choose (poweroff _) (choose boot (choose reboot stay)))))))))))))))

def stop (s : State) : State :=
  let s := if s.menu.state = .tag then setState s .value else s
  let s := stopAction s (stopParam s.menu)
  let s := { s with flush := flushShiftDrainStop s.flush }
  let s := modeSet s s.menu.backupMode
  let s := sendMessage0 s msgIdResume
  reset s

def schedule (s : State) (delay : Byte) : State :=
  { s with timers := atSchedule (atCancel s.timers .menu) .menu delay .stop }

def tagRequest (s : State) : State :=
  if s.menu.state ≠ .value then s
  else if s.menu.paramId ≠ s.menu.tagParam then s
  else
    let valueId := if s.menu.paramId = paramPlaylist then ValueId.playlist else .track
    if s.menu.tagValue ≠ s.menu.paramNew valueId then s
    else
      let parameter := if s.menu.paramId = paramPlaylist then parameterPlaylist else parameterTrack
      sendMessage2 s msgIdQueryName parameter s.menu.tagValue

def scheduleTag (s : State) : State :=
  if s.menu.state ≠ .value then s
  else if s.menu.paramId ≠ paramPlaylist ∧ s.menu.paramId ≠ paramTrack then s
  else
    let valueId := if s.menu.paramId = paramPlaylist then ValueId.playlist else .track
    { s with
      menu := { s.menu with tagParam := s.menu.paramId, tagValue := s.menu.paramNew valueId }
      timers := atSchedule (atCancel s.timers .menuTag) .menuTag delayTag .tagRequest }

def selectParam (m : Menu) (action : Byte) : Menu :=
  if action = rotorClockwise ∧ m.paramId < m.paramIdMax then
    { m with paramId := m.paramId + 1 }
  else if action = rotorCounterClockwise ∧ m.paramId > m.paramIdMin then
    { m with paramId := m.paramId - 1 }
  else m

def valueFlag (paramId : Byte) : Byte :=
  if paramId = paramTrack then flagTrack
  else if paramId = paramVolume then flagVolume
  else if paramId = paramBrightness then flagBrightness else flagPlaylist

def valueIdOf (paramId : Byte) : ValueId :=
  if paramId = paramTrack then .track
  else if paramId = paramVolume then .volume
  else if paramId = paramBrightness then .brightness else .playlist

def selectValue (m : Menu) (action : Byte) : Menu :=
  if m.paramId ≠ paramTrack ∧ m.paramId ≠ paramVolume ∧ m.paramId ≠ paramBrightness ∧
      m.paramId ≠ paramPlaylist then m
  else if m.paramFlag &&& valueFlag m.paramId = 0 then m
  else
    let id := valueIdOf m.paramId
    if action = rotorClockwise ∧ m.paramNew id < m.paramMax id then
      { m with paramNew := Function.update m.paramNew id (m.paramNew id + 1) }
    else if action = rotorCounterClockwise ∧ m.paramNew id > m.paramMin id then
      { m with paramNew := Function.update m.paramNew id (m.paramNew id - 1) }
    else m

def selectApply (m : Menu) (action : Byte) : Menu :=
  { m with paramId := if action = rotorClockwise then paramApply else paramCancel }

def rotorToState (id : Byte) : MenuState :=
  if id = rotorApply then .apply else if id = rotorParam then .param else .value

def rotorToParam (isConnected : Bool) (id : Byte) : Byte :=
  if id = rotorApply then paramApply
  else if isConnected = false then if id = rotorParam then paramPowerOn else paramBrightness
  else if id = rotorVolume then paramVolume
  else if id = rotorTrack then paramTrack
  else if id = rotorPlaylist then paramPlaylist
  else paramPowerOff

/-- The knob of the present state is turned. -/
def turnSame (s : State) (id action : Byte) : State :=
  match s.menu.state with
  | .apply => { s with menu := selectApply s.menu action }
  | .param => { s with menu := selectParam s.menu action }
  | .value =>
    let s :=
      if s.menu.paramId ≠ rotorToParam s.isConnected id then
        querySource { s with menu := { s.menu with paramId := rotorToParam s.isConnected id } }
      else s
    scheduleTag { s with menu := selectValue s.menu action }
  | _ => s

/-- The knob of another state, which has just been entered, is turned. -/
def turnOther (s : State) (id action : Byte) : State :=
  match rotorToState id with
  | .apply => { s with menu := selectApply s.menu action }
  | .param => { s with menu := selectParam s.menu action }
  | _ =>
    let m := { s.menu with paramId := rotorToParam s.isConnected id }
    querySource { s with menu := selectValue m action }

def menuHandleRotor (s : State) (id action : Byte) : State :=
  let rotorState := rotorToState id
  if rotorState = .apply ∧ s.menu.state = .idle then s
  else if s.menu.state = rotorState then
    schedule (turnSame s id action) (if s.menu.state = .apply then delayApply else delaySelect)
  else
    let s := if s.menu.state = .idle then start s id else s
    let s := setState s rotorState
    schedule (turnOther s id action) (if rotorState = .apply then delayApply else delaySelect)

def menuParameterValue (s : State) (parameter value min max : Byte) : State × Bool :=
  if parameter ≠ parameterVolume ∧ parameter ≠ parameterTrack ∧ parameter ≠ parameterPlaylist then
    (s, false)
  else
    let id := if parameter = parameterVolume then ValueId.volume
      else if parameter = parameterTrack then .track else .playlist
    let flag := if parameter = parameterVolume then flagVolume
      else if parameter = parameterTrack then flagTrack else flagPlaylist
    let m := { s.menu with
      paramOld := Function.update s.menu.paramOld id value
      paramNew := Function.update s.menu.paramNew id value
      paramMin := Function.update s.menu.paramMin id min
      paramMax := Function.update s.menu.paramMax id max
      paramFlag := s.menu.paramFlag ||| flag }
    (schedule { s with menu := m } delaySelect, true)

def menuParameterName (s : State) (parameter id : Byte) : State × Bool :=
  if parameter ≠ parameterPlaylist ∧ parameter ≠ parameterTrack then (s, false)
  else
    let param := if parameter = parameterPlaylist then paramPlaylist else paramTrack
    -- too late
    if param ≠ s.menu.paramId ∨ param ≠ s.menu.tagParam ∨ id ≠ s.menu.tagValue then (s, true)
    else (setState (schedule s delayRead) .tag, true)

end LedServer.Avr
