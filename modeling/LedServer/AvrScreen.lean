import LedServer.AvrFont
import LedServer.AvrMenu

set_option autoImplicit false

/-!
# The pictures of `menu.c` and `watch.c`

What `render` of either file puts into a `buf_t` before it hands it to
`flush_stable_display`, and the buffer of `watch.c` behind the clock.
-/
namespace LedServer.Avr
open AvrRing AvrTwi

/-! ### `menu.c` -/

/-- The cases of `render_label` and their arrays. -/
def labels : List (Byte × List Byte) := [
  (paramApply, [fontA, fontSmallP, fontSmallP, fontSmallL, fontSmallY]),
  (paramBrightness, [fontB, fontSmallR]),
  (paramBrightnessMin, [fontB, fontSmallR, fontMinus, fontM, fontSmallI, fontSmallN]),
  (paramBrightnessMiddle, [fontB, fontSmallR, fontMinus, fontM, fontSmallI, fontSmallD,
    fontSmallD, fontSmallL, fontSmallE]),
  (paramBrightnessMax, [fontB, fontSmallR, fontMinus, fontM, fontSmallA, fontSmallX]),
  (paramCancel, [fontC, fontSmallA, fontSmallN, fontSmallC, fontSmallE, fontSmallL]),
  (paramNext, [fontN, fontSmallE, fontSmallX, fontSmallT]),
  (paramPlay, [fontP, fontSmallL, fontSmallA, fontSmallY]),
  (paramPlaylist, [fontP, fontL]),
  (paramPrevious, [fontP, fontSmallR, fontSmallE, fontSmallV]),
  (paramReboot, [fontR, fontSmallE, fontSmallB, fontSmallO, fontSmallO, fontSmallT]),
  (paramPowerOff, [fontO, fontSmallF, fontSmallF]),
  (paramPowerOff15, [fontO, fontSmallF, fontSmallF, fontMinus, font1, font5]),
  (paramPowerOff30, [fontO, fontSmallF, fontSmallF, fontMinus, font3, font0]),
  (paramPowerOn, [fontO, fontSmallN]),
  (paramStop, [fontS, fontSmallT, fontSmallO, fontSmallP]),
  (paramTrack, [fontC, fontSmallH]),
  (paramVolume, [fontV, fontSmallO])]

/-- The default renders nothing. -/
def labelWord (param : Byte) : List Byte := (labels.lookup param).getD []

def renderLabel (buf : Buf) (param : Byte) : Buf := (renderWord buf (labelWord param)).1

/-- The parameters that have a number. -/
def isValue (param : Byte) : Bool :=
  param = paramTrack || param = paramVolume || param = paramBrightness || param = paramPlaylist

def renderSource (m : Menu) (buf : Buf) (param : Byte) : Buf :=
  if !isValue param then buf
  else
    let buf := (renderSymbol buf fontColon).1
    if m.paramFlag &&& valueFlag param = 0 then (renderSymbol buf fontStar).1
    else (renderNumber buf (m.paramOld (valueIdOf param)) renderLeadingDisable).1

def renderDestination (m : Menu) (buf : Buf) (param : Byte) : Buf :=
  if !isValue param then buf
  -- destination is invalid
  else if m.paramFlag &&& valueFlag param = 0 then buf
  else
    let buf := (renderSymbol buf fontColon).1
    (renderNumber buf (m.paramNew (valueIdOf param)) renderLeadingDisable).1

/-- `render`: what it passes to `flush_stable_display`, if it does. -/
def menuRender (m : Menu) : Option Buf :=
  if m.state = .idle then none
  else
    let buf := (bufByteFill bufInit 0).1
    let buf := renderLabel buf m.paramId
    let buf :=
      if m.state = .param ∨ m.state = .value then
        renderDestination m (renderSource m buf m.paramId) m.paramId
      else buf
    some (renderTail buf)

/-- The picture `menu_handle_rotor` renders at its end, unless it returns early. -/
def rotorPicture (s : State) (id action : Byte) : Option Buf :=
  if rotorToState id = .apply ∧ s.menu.state = .idle then none
  else menuRender (menuHandleRotor s id action).menu

/-- The parameter a value is for. -/
def paramOfParameter (parameter : Byte) : Byte :=
  if parameter = parameterVolume then paramVolume
  else if parameter = parameterTrack then paramTrack else paramPlaylist

/-- The picture `menu_parameter_value` renders, if it does. -/
def valuePicture (s : State) (parameter value min max : Byte) : Option Buf :=
  if parameter ≠ parameterVolume ∧ parameter ≠ parameterTrack ∧ parameter ≠ parameterPlaylist then
    none
  else
    let s := (menuParameterValue s parameter value min max).1
    if paramOfParameter parameter = s.menu.paramId then menuRender s.menu else none

/-! ### `watch.c` -/

def imageIndent : ℕ := 10

inductive RtcUnit where
  | hour | minute | second
deriving DecidableEq, Repr

/-- `rtc` with `RTC_FROM`. -/
def rtcFrom (src : Byte) (unit : RtcUnit) : Byte :=
  let tensMask : Byte := if unit = .hour then 0x3 else 0x7
  ((src >>> 4) &&& tensMask) * 10 + (src &&& 0xf)

/-- `buffer`, one field a register. -/
structure Watch where
  second : Byte
  minute : Byte
  hour : Byte
deriving DecidableEq, Repr

/-- The loop of `watch_init` over `buffer`. -/
def watchZero : Watch := ⟨0, 0, 0⟩

/-- `render`: what it passes to `flush_stable_display`. -/
def watchRender (w : Watch) : Buf :=
  let image := (List.range imageIndent).foldl (fun image _ => (bufByteFill image 0).1) bufInit
  let image := (renderNumber image (rtcFrom w.hour .hour) renderLeadingDisable).1
  let image := (renderSymbol image fontColon).1
  let image := (renderNumber image (rtcFrom w.minute .minute) renderLeadingTen).1
  let image := (renderSymbol image fontColon).1
  let image := (renderNumber image (rtcFrom w.second .second) renderLeadingTen).1
  renderTail image

/-- `buffer[tag] = byte`, the tag being below `BUFFER_SIZE`. -/
def Watch.store (w : Watch) (tag byte : Byte) : Watch :=
  if tag = bufferSecond then { w with second := byte }
  else if tag = bufferMinute then { w with minute := byte }
  else { w with hour := byte }

/-- `read_callback`: the buffer, and the picture rendered from it. -/
def readCallback (w : Watch) (tag : Byte) (status : TwiStatus) (len : Byte) (value : List Byte) :
    Watch × Option Buf :=
  if status ≠ .success ∨ tag ≥ epochSize ∨ len < 1 then (w, none)
  else
    let w := w.store tag (value.getD 0 0)
    (w, some (watchRender w))

/-- What the callback of `twi_try` does to the watch; the one for writes is null. -/
def watchCallback (w : Watch) : Option TwiReport → Watch × Option Buf
  | some (.read _ tag status len value) => readCallback w tag status len value
  | _ => (w, none)

end LedServer.Avr
