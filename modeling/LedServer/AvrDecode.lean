import LedServer.AvrMenu

set_option autoImplicit false

/-!
# `decode.c`, the callbacks of the two timers and the main loop

`decode_try` is given as it stands and, for the interrupts that come in between,
as the sequence of its accesses to `read_buf`.
-/
namespace LedServer.Avr
open AvrRing AvrTwi

def inSize : ℕ := 26

def catchDecoded : Byte := 1
def sizeDecoded : Byte := 2
def serialDecoded : Byte := 4
def msgIdDecoded : Byte := 8

def decodeInit (d : Decoder) : Decoder :=
  { d with decoded := 0, msgSize := 0, msgSerial := 0, msgId := msgIdEmpty }

def decoderPower : Decoder where
  decoded := 0
  msgSize := 0
  msgSerial := 0
  msgId := 0
  inBuf := List.replicate inSize 0
  calls := []
  requested := []

def inByte (d : Decoder) (i : ℕ) : Byte := d.inBuf.getD i 0

/-- What `decode` is invoked with: the payload is the part of `in_buf` the size
byte accounts for. -/
def decodedMessage (d : Decoder) : Message :=
  ⟨d.msgSerial, d.msgId, d.inBuf.take (d.msgSize - 2).toNat⟩

/-- The reply of `decode`: `encode_msg_2` with the status and a message id. -/
def reply (s : State) (status msgId : Byte) : State :=
  { s with link := encodeMsg2 s.link msgIdStatus s.decoder.msgSerial status msgId }

def statusOf (ok : Bool) : Byte := if ok then statusSuccess else statusFail

def decode (s : State) : State :=
  let s := { s with
    heartbeat := heartbeatConfirm s.heartbeat
    decoder := { s.decoder with calls := s.decoder.calls ++ [decodedMessage s.decoder] } }
  let d := s.decoder
  if d.msgId = msgIdLedArray then
    let result := flushShiftData s.flush d.inBuf (d.msgSize - 2)
    reply { s with flush := result.1 } (statusOf result.2) msgIdLedArray
  else if d.msgId = msgIdQueryName then
    let result := menuParameterName s (inByte d 0) (inByte d 1)
    reply result.1 (statusOf result.2) d.msgId
  else if d.msgId = msgIdQueryNumber then
    let result := menuParameterValue s (inByte d 0) (inByte d 1) (inByte d 2) (inByte d 3)
    reply result.1 (statusOf result.2) d.msgId
  else if d.msgId = msgIdIdle then s
  else if d.msgId = msgIdSyncClock then
    reply { s with twi := watchSet s.twi (inByte d 0) (inByte d 1) 0 } statusSuccess
      msgIdSyncClock
  else if d.msgId = msgIdHandshake then modeSet s .radio
  else reply s statusUnknownMsg d.msgId

/-- `spi_read_array (in_buf, msg_size - 2)`. -/
def readPayload (s : State) : State × Bool :=
  let result := spiReadArray s.link s.decoder.inBuf (s.decoder.msgSize - 2)
  ({ s with
    link := result.1
    decoder := { s.decoder with
      inBuf := result.2.1
      requested := s.decoder.requested ++ [s.decoder.msgSize - 2] } }, result.2.2)

def readSymbol (s : State) : State × Option Byte :=
  ({ s with link := (spiReadSymbol s.link).1 }, (spiReadSymbol s.link).2)

/-- `decode ()` and `decode_init ()` once the payload has been read. -/
def decodeDone (s : State) : State :=
  let s := decode s
  { s with decoder := decodeInit s.decoder }

/-! ### `decode_try` at once -/

def tryPayload (s : State) : State :=
  match readPayload s with
  | (s, false) => s
  | (s, true) => decodeDone s

/-- One header field: read if it has not been, given up when nothing is there. -/
def tryField (flag : Byte) (store : Decoder → Byte → Decoder) (rest : State → State)
    (s : State) : State :=
  if s.decoder.decoded &&& flag = 0 then
    match readSymbol s with
    | (s, none) => s
    | (s, some symbol) =>
      let d := store s.decoder symbol
      rest { s with decoder := { d with decoded := d.decoded ||| flag } }
  else rest s

def storeSize (d : Decoder) (symbol : Byte) : Decoder := { d with msgSize := symbol }
def storeSerial (d : Decoder) (symbol : Byte) : Decoder := { d with msgSerial := symbol }
def storeMsgId (d : Decoder) (symbol : Byte) : Decoder := { d with msgId := symbol }

def tryHeader (s : State) : State :=
  tryField sizeDecoded storeSize
    (tryField serialDecoded storeSerial
      (tryField msgIdDecoded storeMsgId tryPayload)) s

def decodeTry (s : State) : State :=
  if spiReadSize s.link = 0 then s
  else if s.decoder.decoded = 0 then
    match readSymbol s with
    | (s, none) => s
    | (s, some symbol) =>
      if symbol ≠ eyeCatch then s
      else
        tryHeader
          { s with decoder := { s.decoder with decoded := s.decoder.decoded ||| catchDecoded } }
  else tryHeader s

/-! ### `decode_try` access by access -/

/-- The next field to be read. -/
def nextPc (decoded : Byte) : DecodePc :=
  if decoded = 0 then .readCatch
  else if decoded &&& sizeDecoded = 0 then .readSize
  else if decoded &&& serialDecoded = 0 then .readSerial
  else if decoded &&& msgIdDecoded = 0 then .readMsgId
  else .readPayload

def stepField (flag : Byte) (store : Decoder → Byte → Decoder) (s : State) : Cpu :=
  match readSymbol s with
  | (s, none) => ⟨s, .idle⟩
  | (s, some symbol) =>
    let d := store s.decoder symbol
    let decoded := d.decoded ||| flag
    ⟨{ s with decoder := { d with decoded := decoded } }, nextPc decoded⟩

/-- The next access to `read_buf` and what the program does before the one
after it. From `idle` the access is the entry test of `decode_try`. -/
def decodeStep (c : Cpu) : Cpu :=
  match c.pc with
  | .idle =>
    if spiReadSize c.state.link = 0 then c else ⟨c.state, nextPc c.state.decoder.decoded⟩
  | .readCatch =>
    match readSymbol c.state with
    | (s, none) => ⟨s, .idle⟩
    | (s, some symbol) =>
      if symbol ≠ eyeCatch then ⟨s, .idle⟩
      else
        let decoded := s.decoder.decoded ||| catchDecoded
        ⟨{ s with decoder := { s.decoder with decoded := decoded } }, nextPc decoded⟩
  | .readSize => stepField sizeDecoded storeSize c.state
  | .readSerial => stepField serialDecoded storeSerial c.state
  | .readMsgId => stepField msgIdDecoded storeMsgId c.state
  | .readPayload =>
    match readPayload c.state with
    | (s, false) => ⟨s, .idle⟩
    | (s, true) => ⟨decodeDone s, .idle⟩

/-! ### Timers, interrupts and the main loop -/

def runAtCallback (s : State) : AtCallback → State
  | .releaseWire => releaseWire s
  | .stop => stop s
  | .tagRequest => tagRequest s
  | .misconfirm => { s with link := misconfirm s.link }

/-- An entry of the table whose time has come. -/
def atExpire (s : State) (id : AtId) : State :=
  match s.timers.callback id with
  | none => s
  | some cb =>
    let s := runAtCallback s cb
    let s := { s with
      timers := { s.timers with callback := Function.update s.timers.callback id none } }
    if atAllEmpty s.timers then { s with timers := cronDisable s.timers .idAt } else s

def atVerifyEntry (s : State) (id : AtId) : State :=
  if s.timers.callback id = none then s
  else
    let s := { s with
      timers := { s.timers with
        current := Function.update s.timers.current id (s.timers.current id + 1) } }
    if s.timers.current id ≥ s.timers.max id then atExpire s id else s

/-- `verify` of `at.c`. -/
def atVerify (s : State) : State := AtId.all.foldl atVerifyEntry s

def runCronCallback (s : State) : CronCallback → State
  | .atVerify => atVerify s
  | .flushShiftDisplay => { s with flush := flushShiftDisplay s.flush }
  | .heartbeatVerify => heartbeatVerify s

def cronTry (s : State) : State :=
  match bufByteDrain s.timers.queue with
  | (queue, none) => { s with timers := { s.timers with queue := queue } }
  | (queue, some id) =>
    let s := { s with timers := { s.timers with queue := queue } }
    match CronId.ofByte id with
    | none => s
    | some id =>
      match s.timers.callbackArray id with
      | none => s
      | some callback => runCronCallback s callback

def postponeTryState (s : State) : State :=
  { s with link := postponeTry s.link (flushShiftBufferSpace s.flush) }

def confirmHoldTime : Byte := 2

/-- `ISR (INT3_vect)`, between two accesses of the main loop. -/
def int3Vect (s : State) : State :=
  let s := { s with
    link := { s.link with
      readBuf := bufferClear s.link.readBuf
      writeBuf := bufferClear s.link.writeBuf
      confirm := true }
    decoder := decodeInit s.decoder }
  { s with
    link := encodeMsg1 s.link msgIdVersion serialIdToIgnore protocolVersion
    timers := atSchedule s.timers .spi confirmHoldTime .misconfirm }

/-- The state before the modules are initialised to work together. -/
def powerUp : State where
  link := linkInit
  decoder := decodeInit decoderPower
  flush := flushInit
  timers := timersInit
  heartbeat := heartbeatInit
  currentMode := .menu
  isConnected := false
  menu := menuReset menuPower flushBrightnessMin
  twi := watchInit twiInit
  bootHeld := false

/-- The state in which the main loop starts. -/
def init : State := modeSet powerUp .watch

end LedServer.Avr
