import LedServer.AvrLink
import LedServer.AvrTimer

set_option autoImplicit false

/-! # `flush.c`, `watch.c`, `heartbeat.c`, `boot.c` and `mode.c` -/
namespace LedServer.Avr
open AvrRing AvrTwi

/-! ### `flush.c` -/

def minDataSize : Byte := 64

def flushBrightnessMin : Byte := 0
def flushBrightnessMiddle : Byte := 7
def flushBrightnessMax : Byte := 15

def flushInit : Flush where
  shiftData := bufferInit
  drain := false
  brightness := flushBrightnessMin
  columns := []
  shifted := []

def flushShiftData (f : Flush) (arr : List Byte) (arrSize : Byte) : Flush × Bool :=
  let payload := arr.take arrSize.toNat
  if f.drain then ({ f with shifted := f.shifted ++ [⟨payload, true, true⟩] }, true)
  else
    let result := bufferArrayFill f.shiftData arr arrSize
    ({ f with
      shiftData := result.1
      columns := f.columns ++ if result.2 then payload else []
      shifted := f.shifted ++ [⟨payload, false, result.2⟩] }, result.2)

/-- The shift; what `dump` sends out before it is not part of the state. -/
def flushShiftDisplay (f : Flush) : Flush :=
  if bufferSize f.shiftData < minDataSize then f
  else { f with shiftData := (bufferByteDrain f.shiftData).1 }

def flushShiftDrainStart (f : Flush) : Flush :=
  { f with drain := true, shiftData := bufferClear f.shiftData }

def flushShiftDrainStop (f : Flush) : Flush := { f with drain := false }

def flushShiftBufferSpace (f : Flush) : Byte := bufferSpace f.shiftData

def flushShiftBufferSize (f : Flush) : Byte := bufferSize f.shiftData

def flushBrightnessGet (f : Flush) : Byte := f.brightness

def flushBrightnessSet (f : Flush) (bNess : Byte) : Flush :=
  if bNess > flushBrightnessMax then f else { f with brightness := bNess }

/-! ### `watch.c` -/

def regEnable : Byte := 0x0e
def regEnable32khz : Byte := 0x0f
def regSecond : Byte := 0
def regMinute : Byte := 1
def regHour : Byte := 2

def regValueEnable : Byte := 0
def regValueDisable : Byte := 4
def regValueDisable32khz : Byte := 0

def bufferSecond : Byte := 0
def bufferMinute : Byte := 1
def bufferHour : Byte := 2
def epochSize : Byte := 3

/-- `rtc` with `RTC_TO`, the limit being 23 for hours and 59 otherwise. -/
def rtcTo (src limit : Byte) : Byte :=
  let src := if src > limit then limit else src
  ((src / 10) <<< 4) ||| (src % 10)

def watchEnable (t : Twi) : Twi := (twiWriteByte t twiIdRtc 0 regEnable regValueEnable).1

def watchDisable (t : Twi) : Twi := (twiWriteByte t twiIdRtc 0 regEnable regValueDisable).1

def watchSet (t : Twi) (hour minute second : Byte) : Twi :=
  (twiWriteArray t twiIdRtc 0 epochSize regSecond
    [rtcTo second 59, rtcTo minute 59, rtcTo hour 23]).1

def rtcAddress : Byte := 0x68

/-- `watch_init` on the TWI side: the slave, the 32 kHz output, the time. -/
def watchInit (t : Twi) : Twi :=
  let t := { t with mAddress := t.mAddress.set twiIdRtc.toNat rtcAddress }
  let t := (twiWriteByte t twiIdRtc 0 regEnable32khz regValueDisable32khz).1
  watchSet t 1 1 1

/-- `ISR (INT2_vect)`. -/
def int2Vect (t : Twi) : Twi :=
  let t := (twiReadByte t twiIdRtc bufferHour regHour).1
  let t := (twiReadByte t twiIdRtc bufferMinute regMinute).1
  (twiReadByte t twiIdRtc bufferSecond regSecond).1

/-! ### `heartbeat.c` -/

def provokeLimit : Byte := 1

def heartbeatInit : Heartbeat := ⟨0, 0, none, none⟩

def heartbeatConfirm (h : Heartbeat) : Heartbeat := { h with currentMisses := 0 }

def heartbeatStart (s : State) (delay max : Byte) (reportCb provokeCb : HeartbeatCallback) :
    State :=
  { s with
    heartbeat := ⟨0, provokeLimit + max, some reportCb, some provokeCb⟩
    timers := cronEnable s.timers .idHeartbeat delay .heartbeatVerify }

def heartbeatCancel (s : State) : State :=
  { s with timers := cronDisable s.timers .idHeartbeat }

/-! ### `mode.c` -/

def slaveDelay : Byte := 5
def hbDelay : Byte := 50
def hbMiss : Byte := 3

def modeSet (s : State) (newMode : Mode) : State :=
  if s.currentMode = newMode then s
  else
    let s := { s with twi := watchDisable s.twi }
    let s := heartbeatCancel s
    let s := { s with timers := cronDisable s.timers .idFlush, currentMode := newMode }
    match newMode with
    | .watch => { s with twi := watchEnable s.twi, isConnected := false }
    | .radio =>
      let s := { s with timers := cronEnable s.timers .idFlush slaveDelay .flushShiftDisplay }
      let s := heartbeatStart s hbDelay hbMiss .switchToWatch .spiInterruptStart
      { s with isConnected := true }
    | .menu => s

def switchToWatch (s : State) : State := modeSet s .watch

def runHeartbeatCallback (s : State) : Option HeartbeatCallback → State
  | none => s
  | some .switchToWatch => switchToWatch s
  | some .spiInterruptStart => { s with link := spiInterruptStart s.link }

/-- `verify` of `heartbeat.c`. -/
def heartbeatVerify (s : State) : State :=
  let s := { s with
    heartbeat := { s.heartbeat with currentMisses := s.heartbeat.currentMisses + 1 } }
  if s.heartbeat.currentMisses ≥ s.heartbeat.maxMisses then
    runHeartbeatCallback (heartbeatCancel s) s.heartbeat.report
  else if s.heartbeat.currentMisses > provokeLimit then
    runHeartbeatCallback s s.heartbeat.provoke
  else s

/-! ### `boot.c` -/

def bootHoldTime : Byte := 2

def releaseWire (s : State) : State := { s with bootHeld := false }

def bootPi (s : State) : State :=
  { s with
    bootHeld := true
    timers := atSchedule s.timers .boot bootHoldTime .releaseWire }

end LedServer.Avr
