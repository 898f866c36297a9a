import LedServer.AvrState

set_option autoImplicit false

/-! # `spi.c`, `postpone.c` and `encode.c` -/
namespace LedServer.Avr
open AvrRing

def spiInterruptStart (l : Link) : Link := { l with irq := true }

def interruptStop (l : Link) : Link := { l with irq := false }

def misconfirm (l : Link) : Link := { l with confirm := false }

def spiReadSymbol (l : Link) : Link × Option Byte :=
  ({ l with readBuf := (bufferByteDrain l.readBuf).1 }, (bufferByteDrain l.readBuf).2)

def spiReadArray (l : Link) (arr : List Byte) (arrSize : Byte) : Link × List Byte × Bool :=
  ({ l with readBuf := (bufferArrayDrain l.readBuf arr arrSize).1 },
    (bufferArrayDrain l.readBuf arr arrSize).2)

def spiReadSpace (l : Link) : Byte := bufferSpace l.readBuf

def spiWriteSpace (l : Link) : Byte := bufferSpace l.writeBuf

def spiReadSize (l : Link) : Byte := bufferSize l.readBuf

def spiWriteArray (l : Link) (array : List Byte) (arraySize : Byte) : Link :=
  spiInterruptStart
    { l with
      writeBuf := (bufferArrayFill l.writeBuf array arraySize).1
      written := l.written ++
        if (bufferArrayFill l.writeBuf array arraySize).2 then [array.take arraySize.toNat]
        else [] }

/-- What the interrupt leaves in `SPDR`. -/
def spdrLoad (l : Link) (byte : Byte) : Link :=
  { l with spdr := byte, loaded := l.loaded ++ [byte] }

/-- `ISR (SPI_STC_vect)`: the exchange has brought `received` into `SPDR` and
taken its old value to the master. -/
def spiStcVect (l : Link) (received : Byte) : Link :=
  match bufferByteFill l.readBuf received with
  | (_, false) => spdrLoad l spiReadOverflow
  | (readBuf, true) =>
    let l := { l with readBuf := readBuf }
    match bufferByteDrain l.writeBuf with
    | (writeBuf, some toSend) => spdrLoad { l with writeBuf := writeBuf } toSend
    | (_, none) => interruptStop (spdrLoad l spiWriteUnderflow)

def postponeBufSize : ℕ := 20

def enoughSpace : Byte := 26

def isWritable (l : Link) : Bool := spiWriteSpace l ≥ enoughSpace

/-- `shiftSpace` is what `flush_shift_buffer_space` returns. -/
def isEnoughSpace (l : Link) (shiftSpace : Byte) : Bool :=
  isWritable l && spiReadSpace l ≥ enoughSpace && shiftSpace ≥ enoughSpace

def postponeTry (l : Link) (shiftSpace : Byte) : Link :=
  if l.postponedSize = 0 ∨ isEnoughSpace l shiftSpace = false then l
  else { spiWriteArray l l.postponedMessage l.postponedSize with postponedSize := 0 }

def postponeMessage (l : Link) (msg : List Byte) (serialId : Byte) : Link :=
  let l := { l with created := l.created ++ [msg] }
  if serialId = serialIdToIgnore then
    if isWritable l then spiWriteArray l msg (BitVec.ofNat 8 msg.length) else l
  else if l.postponedSize ≠ 0 then { l with discarded := l.discarded ++ [msg] }
  else
    { l with
      postponedSize := BitVec.ofNat 8 msg.length
      postponedMessage := msg ++ l.postponedMessage.drop msg.length }

def outSize : ℕ := 15

/-- `encode_msg` and the payload bytes its callers append to `out_buf`. -/
def encodeMsg (msgId serialId size : Byte) (payload : List Byte) : List Byte :=
  [eyeCatch, size, serialId, msgId] ++ payload

def encodeMsg0 (l : Link) (msgId serialId : Byte) : Link :=
  postponeMessage l (encodeMsg msgId serialId 2 []) serialId

def encodeMsg1 (l : Link) (msgId serialId payload1 : Byte) : Link :=
  postponeMessage l (encodeMsg msgId serialId 3 [payload1]) serialId

def encodeMsg2 (l : Link) (msgId serialId payload1 payload2 : Byte) : Link :=
  postponeMessage l (encodeMsg msgId serialId 4 [payload1, payload2]) serialId

def encodeMsg3 (l : Link) (msgId serialId payload1 payload2 payload3 : Byte) : Link :=
  postponeMessage l (encodeMsg msgId serialId 5 [payload1, payload2, payload3]) serialId

def encodeMsg4 (l : Link) (msgId serialId payload1 payload2 payload3 payload4 : Byte) : Link :=
  postponeMessage l (encodeMsg msgId serialId 6 [payload1, payload2, payload3, payload4]) serialId

def encodeMsg5 (l : Link)
    (msgId serialId payload1 payload2 payload3 payload4 payload5 : Byte) : Link :=
  postponeMessage l
    (encodeMsg msgId serialId 7 [payload1, payload2, payload3, payload4, payload5]) serialId

def encodeMsg6 (l : Link)
    (msgId serialId payload1 payload2 payload3 payload4 payload5 payload6 : Byte) : Link :=
  postponeMessage l
    (encodeMsg msgId serialId 8 [payload1, payload2, payload3, payload4, payload5, payload6])
    serialId

def encodeMsg8 (l : Link)
    (msgId serialId payload1 payload2 payload3 payload4 payload5 payload6 payload7
      payload8 : Byte) : Link :=
  postponeMessage l
    (encodeMsg msgId serialId 10
      [payload1, payload2, payload3, payload4, payload5, payload6, payload7, payload8]) serialId

def linkInit : Link where
  readBuf := bufferInit
  writeBuf := bufferInit
  spdr := 0
  irq := false
  confirm := false
  postponedMessage := List.replicate postponeBufSize spiWriteUnderflow
  postponedSize := 0
  loaded := []
  created := []
  written := []
  discarded := []

end LedServer.Avr
