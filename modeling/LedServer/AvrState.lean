import LedServer.AvrTwi
import LedServer.Message

set_option autoImplicit false

/-!
# The static variables of the AVR program

One record for each group of source files, and the function pointers those
files store as an enumeration of the functions they are given.
-/
namespace LedServer.Avr
open AvrRing AvrTwi

inductive Mode where
  | menu | watch | radio
deriving DecidableEq, Repr

inductive MenuState where
  | apply | idle | param | tag | value
deriving DecidableEq, Repr

inductive ValueId where
  | brightness | playlist | track | volume
deriving DecidableEq, Repr

inductive CronId where
  | idAt | idFan | idFlush | idHeartbeat
deriving DecidableEq, Repr

inductive AtId where
  | boot | menu | menuTag | spi
deriving DecidableEq, Repr

inductive CronCallback where
  | atVerify | flushShiftDisplay | heartbeatVerify
deriving DecidableEq, Repr

inductive AtCallback where
  | releaseWire | stop | tagRequest | misconfirm
deriving DecidableEq, Repr

inductive HeartbeatCallback where
  | switchToWatch | spiInterruptStart
deriving DecidableEq, Repr

/-- `spi.c`, `postpone.c` and `encode.c`. The last four fields keep what has
happened and are read by no function: the bytes put into `SPDR`, the frames
handed to `postpone_message`, those that reached `write_buf`, and the replies
dropped because the slot was taken. -/
structure Link where
  readBuf : Buffer
  writeBuf : Buffer
  spdr : Byte
  irq : Bool
  confirm : Bool
  postponedMessage : List Byte
  postponedSize : Byte
  loaded : List Byte
  created : List (List Byte)
  written : List (List Byte)
  discarded : List (List Byte)

/-- `decode.c`. `calls` keeps the invocations of `decode`, `requested` the
counts passed to `spi_read_array`. -/
structure Decoder where
  decoded : Byte
  msgSize : Byte
  msgSerial : Byte
  msgId : Byte
  inBuf : List Byte
  calls : List Message
  requested : List Byte

/-- A call of `flush_shift_data`: its bytes, the drain flag, what it returned. -/
structure ShiftCall where
  payload : List Byte
  drain : Bool
  accepted : Bool

/-- `flush.c` without the display pins and the stable picture. `columns` keeps
what has been appended to `shift_data`, `shifted` the calls. -/
structure Flush where
  shiftData : Buffer
  drain : Bool
  brightness : Byte
  columns : List Byte
  shifted : List ShiftCall

/-- `cron.c` and `at.c`. -/
structure Timers where
  callbackArray : CronId → Option CronCallback
  factorArray : CronId → Byte
  counterArray : CronId → Byte
  queue : Buf
  engaged : Bool
  current : AtId → Byte
  max : AtId → Byte
  callback : AtId → Option AtCallback

structure Heartbeat where
  currentMisses : Byte
  maxMisses : Byte
  report : Option HeartbeatCallback
  provoke : Option HeartbeatCallback

structure Menu where
  backupMode : Mode
  paramFlag : Byte
  paramMax : ValueId → Byte
  paramMin : ValueId → Byte
  paramOld : ValueId → Byte
  paramNew : ValueId → Byte
  paramId : Byte
  paramIdMin : Byte
  paramIdMax : Byte
  secondaryParam : Byte
  state : MenuState
  tagParam : Byte
  tagValue : Byte

structure State where
  link : Link
  decoder : Decoder
  flush : Flush
  timers : Timers
  heartbeat : Heartbeat
  currentMode : Mode
  isConnected : Bool
  menu : Menu
  twi : Twi
  bootHeld : Bool

/-- Where the main loop stands between two accesses to `read_buf`: at `idle`
outside `decode_try`, else before the access named. -/
inductive DecodePc where
  | idle | readCatch | readSize | readSerial | readMsgId | readPayload
deriving DecidableEq, Repr

/-- The variables and the place in the program. -/
structure Cpu where
  state : State
  pc : DecodePc

end LedServer.Avr
