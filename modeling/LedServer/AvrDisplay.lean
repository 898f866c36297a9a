import LedServer.AvrMode
import LedServer.AvrRingBulk
import LedServer.PortProgram

set_option autoImplicit false

/-!
# `display.c` and the dump of `flush.c`

Two display controllers hang on one port with three pins each. A function of
`display.c` is the program of its writes to the port; its delays are left out.
-/
namespace LedServer.Avr
open AvrRing PortProgram

/-! ### `display.c` -/

def cmdDisable : Byte := 0x0
def cmdEnable : Byte := 0x1
def cmdNmos8com : Byte := 0x20
def cmdLedOn : Byte := 0x3
def cmdBrightnessMask : Byte := 0xA0

def prefixCmd : Byte := 0x4
def prefixData : Byte := 0x5

/-- `struct display_t`, one mask a pin. -/
structure Display where
  cs : Byte
  clk : Byte
  data : Byte
deriving DecidableEq

def csActivate (cs : Byte) : Program Byte := seq (modify (· ||| cs)) (modify (· &&& ~~~cs))

def csDeactivate (cs : Byte) : Program Byte := modify (· ||| cs)

def flushBit (clk data bit : Byte) : Program Byte :=
  seq (modify (· &&& ~~~clk))
    (seq (if bit ≠ 0 then modify (· ||| data) else modify (· &&& ~~~data))
      (modify (· ||| clk)))

/-- The values of a mask in `n` turns of a loop that ends with `mask >>= 1`. -/
def masksDown (mask : Byte) (n : ℕ) : List Byte := List.iterate (fun m => m >>> 1) mask n

/-- The same for `mask <<= 1`. -/
def masksUp (mask : Byte) (n : ℕ) : List Byte := List.iterate (fun m => m <<< 1) mask n

/-- The loop over a moving `mask`: one call of `flush_bit` for each value it takes. -/
def flushMasked (clk data byte : Byte) (masks : List Byte) : Program Byte :=
  each (fun mask => flushBit clk data (byte &&& mask)) masks

def flushPrefix (clk data code : Byte) : Program Byte :=
  flushMasked clk data code (masksDown ((1 : Byte) <<< 2) 3)

def flushZeroAddress (clk data : Byte) : Program Byte :=
  each (fun _ => flushBit clk data 0) (List.range 7)

/-- The low bit goes first. -/
def flushNibble (clk data nibble : Byte) : Program Byte :=
  flushMasked clk data nibble (masksUp ((1 : Byte) <<< 0) 4)

def flushCmd (clk data cmd : Byte) : Program Byte :=
  seq (flushMasked clk data cmd (masksDown ((1 : Byte) <<< 7) 8)) (flushBit clk data 0)

def displayStart (cs clk data : Byte) : Program Byte :=
  seq (csActivate cs) <| seq (flushPrefix clk data prefixCmd) <|
    seq (each (flushCmd clk data)
      [cmdDisable, cmdNmos8com, cmdEnable, cmdLedOn, cmdBrightnessMask ||| 0xF])
    (csDeactivate cs)

def displayPins (cs clk data : Byte) : Display :=
  ⟨(1 : Byte) <<< cs.toNat, (1 : Byte) <<< clk.toNat, (1 : Byte) <<< data.toNat⟩

/-- `DISPLAY_DIRECTION_PORT` and what `start` writes. -/
def displayInit (d : Display) (direction : Byte) : Byte × Program Byte :=
  (direction ||| (d.cs ||| d.clk ||| d.data), displayStart d.cs d.clk d.data)

def displayDataStart (d : Display) : Program Byte :=
  seq (csActivate d.cs) <| seq (flushPrefix d.clk d.data prefixData) <|
    flushZeroAddress d.clk d.data

def displayDataColumn (d : Display) (column : Byte) : Program Byte :=
  seq (flushNibble d.clk d.data (column &&& 0xF))
    (flushNibble d.clk d.data ((column &&& 0xF0) >>> 4))

def displayDataStop (d : Display) : Program Byte := csDeactivate d.cs

def displayBrightness (d : Display) (value : Byte) : Program Byte :=
  seq (csActivate d.cs) <| seq (flushPrefix d.clk d.data prefixCmd) <|
    seq (flushCmd d.clk d.data (cmdBrightnessMask ||| (value &&& 0xF))) (csDeactivate d.cs)

/-! ### `flush.c` -/

def matrixSize : ℕ := 32

def left : Display := displayPins 5 3 1

def right : Display := displayPins 4 2 0

def flushBrightnessWrites (bNess : Byte) : Program Byte :=
  if bNess > flushBrightnessMax then fun _ => []
  else seq (displayBrightness left bNess) (displayBrightness right bNess)

/-- What `flush_init` writes to the port, its directions being set. -/
def flushInitWrites (direction : Byte) : Program Byte :=
  let first := displayInit left direction
  let second := displayInit right first.1
  seq first.2 <| seq second.2 <| flushBrightnessWrites flushBrightnessMin

def getData (shiftData : Buffer) (stableData : List Byte) (shiftMode position : Byte) : Byte :=
  if shiftMode ≠ 0 then (bufferByteGet shiftData position).getD 0
  else stableData.getD position.toNat 0

def dump (shiftData : Buffer) (stableData : List Byte) (shiftMode : Byte) : Program Byte :=
  let data := getData shiftData stableData shiftMode
  let column : ℕ → Program Byte := fun i =>
    seq (displayDataColumn left (data (BitVec.ofNat 8 i)))
      (displayDataColumn right (data (BitVec.ofNat 8 (i + matrixSize))))
  seq (displayDataStart left) <| seq (displayDataStart right) <|
    seq (each column (List.range matrixSize)) <|
    seq (displayDataStop left) (displayDataStop right)

/-- `flush_stable_display`: the new `stable_data` and the writes of the dump. -/
def flushStableDisplay (shiftData : Buffer) (buf : Buf) : List Byte × Program Byte :=
  let stableData := (List.range minDataSize.toNat).map fun i =>
    (bufByteGet buf (BitVec.ofNat 8 i)).getD 0
  (stableData, dump shiftData stableData 0)

end LedServer.Avr
