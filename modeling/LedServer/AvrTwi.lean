import LedServer.AvrRing

set_option autoImplicit false

/-!
# `twi.c`

Requests are queued byte by byte by the main loop and taken off the queue one
at a time by `twi_try`; `TWI_vect` then carries out the transaction.
-/
namespace LedServer.AvrTwi
open AvrRing

def twiIdRtc : Byte := 0
def twiIdSize : Byte := 1

def maxLen : ℕ := 128
def overhead : ℕ := 4

/-- The codes of `util/twi.h` the interrupt checks for. -/
def twStart : Byte := 0x08
def twRepStart : Byte := 0x10
def twMtSlaAck : Byte := 0x18
def twMtDataAck : Byte := 0x28
def twMrSlaAck : Byte := 0x40
def twMrDataAck : Byte := 0x50

inductive TwiStatus where
  | success
  | writeStartError | readStartError | readRestartError
  | writeSlaveError | readSlaveError | readRestartSlaveError
  | writeRegError | readRegError
  | writeValueError | readValueError
deriving DecidableEq, Repr

inductive TwiMode where
  | writeStart | writeSlave | writeReg | writeValue
  | readStart | readSlave | readReg | readRestart | readRestartSlave | readValue
  | idle
deriving DecidableEq, Repr

/-- `++mode`, which the interrupt does below `MODE_IDLE` only. -/
def TwiMode.next : TwiMode → TwiMode
  | .writeStart => .writeSlave
  | .writeSlave => .writeReg
  | .writeReg => .writeValue
  | .writeValue => .readStart
  | .readStart => .readSlave
  | .readSlave => .readReg
  | .readReg => .readRestart
  | .readRestart => .readRestartSlave
  | .readRestartSlave => .readValue
  | .readValue => .idle
  | .idle => .idle

inductive TwiAction where
  | write | read | idle
deriving DecidableEq, Repr

/-- The values `TWCR` is given: `GO_AHEAD`, alone or with a start or a stop. -/
inductive TwiControl where
  | goAhead | goAheadStart | goAheadStop
deriving DecidableEq, Repr

structure Twi where
  mode : TwiMode
  status : TwiStatus
  mAction : TwiAction
  mTag : Byte
  mId : Byte
  mReg : Byte
  mIndex : Byte
  mMaxIndex : Byte
  mData : List Byte
  mAddress : List Byte
  queue : Buffer
  twcr : TwiControl
  twdr : Byte

def actionReset (t : Twi) : Twi :=
  { t with
    status := .success
    mAction := .idle
    mTag := 0
    mReg := 0
    mData := List.replicate maxLen 0
    mIndex := 0
    mMaxIndex := 0 }

def twiInit : Twi where
  mode := .idle
  status := .success
  mAction := .idle
  mTag := 0
  mId := twiIdSize
  mReg := 0
  mIndex := 0
  mMaxIndex := 0
  mData := List.replicate maxLen 0
  mAddress := List.replicate twiIdSize.toNat 0
  queue := bufferInit
  twcr := .goAhead
  twdr := 0

/-- `buffer_byte_fill` call after call, given up at the first refusal. -/
def twiFill : Buffer → List Byte → Buffer × Bool
  | q, [] => (q, true)
  | q, b :: bytes =>
    match bufferByteFill q b with
    | (q, true) => twiFill q bytes
    | (q, false) => (q, false)

def headerWrite (len : Byte) : Byte := len <<< 1
def headerRead (len : Byte) : Byte := (len <<< 1) ||| 1

def twiWriteArray (t : Twi) (id tag len reg : Byte) (data : List Byte) : Twi × Bool :=
  if id ≥ twiIdSize ∨ len = 0 ∨ len.toNat > maxLen ∨
      (bufferSpace t.queue).toNat < len.toNat + overhead then
    (t, false)
  else
    let result := twiFill t.queue ([headerWrite len, id, tag, reg] ++ data.take len.toNat)
    ({ t with queue := result.1 }, result.2)

def twiReadArray (t : Twi) (id tag len reg : Byte) : Twi × Bool :=
  if id ≥ twiIdSize ∨ len = 0 ∨ len.toNat > maxLen ∨
      (bufferSpace t.queue).toNat < overhead then
    (t, false)
  else
    let result := twiFill t.queue [headerRead len, id, tag, reg]
    ({ t with queue := result.1 }, result.2)

def twiWriteByte (t : Twi) (id tag reg value : Byte) : Twi × Bool :=
  twiWriteArray t id tag 1 reg [value]

def twiReadByte (t : Twi) (id tag reg : Byte) : Twi × Bool := twiReadArray t id tag 1 reg

def start (t : Twi) (newMode : TwiMode) : Twi :=
  { t with
    mode := if newMode = .writeStart then .writeStart else .readStart
    twcr := .goAheadStart }

def stop (t : Twi) : Twi := { t with mode := .idle, twcr := .goAheadStop }

/-- The data bytes of a write request, taken off the queue while it has any. -/
def actionData (q : Buffer) (data : List Byte) (i : ℕ) : ℕ → Buffer × List Byte
  | 0 => (q, data)
  | k + 1 =>
    match bufferByteDrain q with
    | (q, some byte) => actionData q (data.set i byte) (i + 1) k
    | (q, none) => (q, data)

/-- Four drains, given up at the first that fails. -/
def actionHeader (q : Buffer) : Buffer × Option (Byte × Byte × Byte × Byte) :=
  match bufferByteDrain q with
  | (q, none) => (q, none)
  | (q, some action) =>
    match bufferByteDrain q with
    | (q, none) => (q, none)
    | (q, some id) =>
      match bufferByteDrain q with
      | (q, none) => (q, none)
      | (q, some tag) =>
        match bufferByteDrain q with
        | (q, none) => (q, none)
        | (q, some reg) => (q, some (action, id, tag, reg))

/-- `ACTION_MASK` is bit 0, `LEN_MASK` the other seven. -/
def actionOf (header : Byte) : TwiAction := if header &&& 1 = 0 then .write else .read
def lenOf (header : Byte) : Byte := (header &&& 0xFE) >>> 1

def actionSet (t : Twi) : Twi :=
  match actionHeader t.queue with
  | (q, none) => { t with queue := q }
  | (q, some (action, id, tag, reg)) =>
    let t := { t with
      queue := q
      mAction := actionOf action
      mIndex := 0
      mMaxIndex := lenOf action
      mId := id
      mTag := tag
      mReg := reg }
    if actionOf action = .write then
      let result := actionData q t.mData 0 (lenOf action).toNat
      { t with queue := result.1, mData := result.2 }
    else t

/-- A callback invocation: the entry of `m_write_cb` or `m_read_cb` that is
called and what it is given. -/
inductive TwiReport where
  | write (id tag : Byte) (status : TwiStatus)
  | read (id tag : Byte) (status : TwiStatus) (len : Byte) (data : List Byte)
deriving DecidableEq

def TwiReport.id : TwiReport → Byte
  | .write id _ _ => id
  | .read id _ _ _ _ => id

def twiReport (t : Twi) : TwiReport :=
  if t.mAction = .write then .write t.mId t.mTag t.status
  else .read t.mId t.mTag t.status t.mMaxIndex t.mData

def twiTry (t : Twi) : Twi × Option TwiReport :=
  if t.mode ≠ .idle then (t, none)
  else if t.mAction ≠ .idle then (actionReset t, some (twiReport t))
  else if (bufferSize t.queue).toNat > 0 then
    let t := actionSet t
    (start t (if t.mAction = .write then .writeStart else .readStart), none)
  else (t, none)

def slaveAddress (t : Twi) (forRead : Bool) : Byte :=
  ((t.mAddress.getD t.mId.toNat 0) <<< 1) ||| (if forRead then 1 else 0)

def checkStatusRegister (twsr mask : Byte) : Bool := (twsr &&& 0xF8) &&& mask = mask

/-- The phases that check the status and go on without looking at the index. -/
def vectPhase (t : Twi) (twsr mask : Byte) (error : TwiStatus) (go : Twi → Twi) : Twi :=
  if checkStatusRegister twsr mask then go t else stop { t with status := error }

/-- `TWI_vect`. The hardware supplies the status register and, for a read, the
byte received. -/
def twiVect (t : Twi) (twsr received : Byte) : Twi :=
  let old := t.mode
  let t := { t with mode := old.next }
  let send (byte : Twi → Byte) (t : Twi) : Twi := { t with twdr := byte t, twcr := .goAhead }
  match old with
  | .writeStart => vectPhase t twsr twStart .writeStartError (send (slaveAddress · false))
  | .writeSlave => vectPhase t twsr twMtSlaAck .writeSlaveError (send (·.mReg))
  | .writeReg =>
    vectPhase t twsr twMtDataAck .writeRegError (send fun t => t.mData.getD t.mIndex.toNat 0)
  | .writeValue =>
    vectPhase t twsr twMtDataAck .writeValueError fun t =>
      let t := { t with mIndex := t.mIndex + 1 }
      if t.mIndex < t.mMaxIndex then
        -- do not advance the mode
        { t with twdr := t.mData.getD t.mIndex.toNat 0, twcr := .goAhead, mode := old }
      else stop t
  | .readStart => vectPhase t twsr twStart .readStartError (send (slaveAddress · false))
  | .readSlave => vectPhase t twsr twMtSlaAck .readSlaveError (send (·.mReg))
  | .readReg =>
    vectPhase t twsr twMtDataAck .readRegError fun t => { t with twcr := .goAheadStart }
  | .readRestart => vectPhase t twsr twRepStart .readRestartError (send (slaveAddress · true))
  | .readRestartSlave =>
    vectPhase t twsr twMrSlaAck .readRestartSlaveError fun t => { t with twcr := .goAhead }
  | .readValue =>
    vectPhase t twsr twMrDataAck .readValueError fun t =>
      let t := { t with mData := t.mData.set t.mIndex.toNat received, mIndex := t.mIndex + 1 }
      if t.mIndex < t.mMaxIndex then { t with twcr := .goAhead, mode := old }
      else stop t
  | .idle => { t with mode := .idle }

end LedServer.AvrTwi
