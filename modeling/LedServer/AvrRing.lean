import LedServer.Constant

set_option autoImplicit false

/-!
# `ring.c` and `buffer.c`

Two 8-bit indices into an array of `size` cells. Every function of the source
runs inside one atomic block, so each is one step here.
-/
namespace LedServer.AvrRing

/-- What `ring.c` is handed by pointer: the cells and the two indices. -/
structure Ring (size : Byte) where
  data : List Byte
  start : Byte
  finish : Byte
  data_length : data.length = size.toNat
deriving DecidableEq

section Functions

variable {size : Byte}

def Ring.cell (r : Ring size) (i : ℕ) : Byte := r.data.getD i 0

def Ring.store (r : Ring size) (i : ℕ) (byte : Byte) : Ring size :=
  { r with data := r.data.set i byte, data_length := by simp [r.data_length] }

def ringInit (size : Byte) : Ring size where
  data := List.replicate size.toNat bufferInitPattern
  start := 0
  finish := 0
  data_length := List.length_replicate

def ringSize (size start finish : Byte) : Byte :=
  if finish ≥ start then finish - start else size - start + finish

def ringClear (r : Ring size) : Ring size := { r with start := 0, finish := 0 }

def ringSpace (size start finish : Byte) : Byte := size - ringSize size start finish

def ringIsFillable (size start finish fillSize : Byte) : Bool :=
  let free := size - ringSize size start finish
  fillSize ≤ free

def ringIsDrainable (size start finish drainSize : Byte) : Bool :=
  drainSize ≤ ringSize size start finish

def ringByteFill (r : Ring size) (byte : Byte) : Ring size × Bool :=
  if ringIsFillable size r.start r.finish 1 then
    if r.finish < size then
      ({ r.store r.finish.toNat byte with finish := r.finish + 1 }, true)
    else
      -- the source expects `start` to be above zero here
      ({ r.store 0 byte with finish := 1 }, true)
  else (r, false)

def ringByteDrain (r : Ring size) : Ring size × Option Byte :=
  if ringIsDrainable size r.start r.finish 1 then
    let byte := r.cell r.start.toNat
    let next := r.start + 1
    let start := if next = r.finish then 0 else next
    let finish := if next = r.finish then 0 else r.finish
    ({ r with start := if start = size then 0 else start, finish := finish }, some byte)
  else (r, none)

def ringByteGet (r : Ring size) (index : Byte) : Option Byte :=
  if index ≥ size then none
  else if ringIsDrainable size r.start r.finish (index + 1) then
    let longIndex := r.start.toNat + index.toNat
    if longIndex < size.toNat then some (r.cell longIndex)
    else some (r.cell (longIndex - size.toNat))
  else none

def ringArrayFill (r : Ring size) (array : List Byte) (arraySize : Byte) : Ring size × Bool :=
  if ringIsFillable size r.start r.finish arraySize then
    ((array.take arraySize.toNat).foldl (fun r byte => (ringByteFill r byte).1) r, true)
  else (r, false)

/-- The loop of `ring_array_drain`: `k` drains are left, the next byte goes to
index `i` of the destination. -/
def ringDrainLoop (r : Ring size) (array : List Byte) (i : ℕ) : ℕ → Ring size × List Byte
  | 0 => (r, array)
  | k + 1 =>
    match ringByteDrain r with
    | (r, some byte) => ringDrainLoop r (array.set i byte) (i + 1) k
    | (r, none) => ringDrainLoop r array (i + 1) k

def ringArrayDrain (r : Ring size) (array : List Byte) (arraySize : Byte) :
    Ring size × List Byte × Bool :=
  if ringIsDrainable size r.start r.finish arraySize then
    ((ringDrainLoop r array 0 arraySize.toNat).1, (ringDrainLoop r array 0 arraySize.toNat).2, true)
  else (r, array, false)

end Functions

/-- `struct buffer_t`: the ring of 255 bytes behind both SPI directions, the
display and the TWI queue. -/
abbrev Buffer := Ring 255

/-- `struct buf_t`: the ring of 64 bytes behind the cron queue. -/
abbrev Buf := Ring 64

def bufferInit : Buffer := ringInit 255

def bufferSize (b : Buffer) : Byte := ringSize 255 b.start b.finish

def bufferClear (b : Buffer) : Buffer := ringClear b

def bufferSpace (b : Buffer) : Byte := ringSpace 255 b.start b.finish

def bufferByteFill (b : Buffer) (byte : Byte) : Buffer × Bool := ringByteFill b byte

def bufferByteDrain (b : Buffer) : Buffer × Option Byte := ringByteDrain b

def bufferByteGet (b : Buffer) (index : Byte) : Option Byte := ringByteGet b index

def bufferArrayFill (b : Buffer) (array : List Byte) (arraySize : Byte) : Buffer × Bool :=
  ringArrayFill b array arraySize

def bufferArrayDrain (b : Buffer) (array : List Byte) (arraySize : Byte) :
    Buffer × List Byte × Bool := ringArrayDrain b array arraySize

def bufInit : Buf := ringInit 64

def bufByteFill (b : Buf) (byte : Byte) : Buf × Bool := ringByteFill b byte

def bufByteDrain (b : Buf) : Buf × Option Byte := ringByteDrain b

end LedServer.AvrRing
