import LedServer.AvrDisplay

set_option autoImplicit false

/-!
# `font.c` and `render.c`

Symbols, numbers and words written into the picture of `buf.c`, which
`flush_stable_display` then shows.
-/
namespace LedServer.Avr
open AvrRing

/-! ### `font.h` -/

def font0 : Byte := 0
def font1 : Byte := 1
def font2 : Byte := 2
def font3 : Byte := 3
def font4 : Byte := 4
def font5 : Byte := 5
def font6 : Byte := 6
def font7 : Byte := 7
def font8 : Byte := 8
def font9 : Byte := 9
def fontA : Byte := 10
def fontB : Byte := 11
def fontC : Byte := 12
def fontD : Byte := 13
def fontE : Byte := 14
def fontH : Byte := 15
def fontL : Byte := 16
def fontM : Byte := 17
def fontN : Byte := 18
def fontO : Byte := 19
def fontP : Byte := 20
def fontR : Byte := 21
def fontS : Byte := 22
def fontT : Byte := 23
def fontV : Byte := 24
def fontX : Byte := 25
def fontY : Byte := 26
def fontSmallA : Byte := 27
def fontSmallB : Byte := 28
def fontSmallC : Byte := 29
def fontSmallD : Byte := 30
def fontSmallE : Byte := 31
def fontSmallF : Byte := 32
def fontSmallG : Byte := 33
def fontSmallH : Byte := 34
def fontSmallI : Byte := 35
def fontSmallK : Byte := 36
def fontSmallL : Byte := 37
def fontSmallM : Byte := 38
def fontSmallN : Byte := 39
def fontSmallO : Byte := 40
def fontSmallP : Byte := 41
def fontSmallR : Byte := 42
def fontSmallS : Byte := 43
def fontSmallT : Byte := 44
def fontSmallU : Byte := 45
def fontSmallV : Byte := 46
def fontSmallX : Byte := 47
def fontSmallY : Byte := 48
def fontAt : Byte := 49
def fontColon : Byte := 50
def fontEqual : Byte := 51
def fontMinus : Byte := 52
def fontMore : Byte := 53
def fontPlus : Byte := 54
def fontSpace : Byte := 55
def fontStar : Byte := 56
def fontMaxSymbol : Byte := 57

/-! ### `font.c` -/

def symbolSize : ℕ := 5

/-- The arrays of `fill_matrix`, in the order of the enumeration: the digits, the
capitals, the small letters, the signs. -/
def symbols : List (List Byte) := [
  [0x3E, 0x51, 0x49, 0x45, 0x3E],
  [0x00, 0x42, 0x7F, 0x40, 0x00],
  [0x42, 0x61, 0x51, 0x49, 0x46],
  [0x21, 0x41, 0x45, 0x4B, 0x31],
  [0x18, 0x14, 0x12, 0x7F, 0x10],
  [0x27, 0x45, 0x45, 0x45, 0x39],
  [0x3C, 0x4A, 0x49, 0x49, 0x30],
  [0x01, 0x71, 0x09, 0x05, 0x03],
  [0x36, 0x49, 0x49, 0x49, 0x36],
  [0x06, 0x49, 0x49, 0x29, 0x1E],
  [0x7E, 0x11, 0x11, 0x11, 0x7E],
  [0x7F, 0x49, 0x49, 0x49, 0x36],
  [0x3E, 0x41, 0x41, 0x41, 0x22],
  [0x7F, 0x41, 0x41, 0x22, 0x1C],
  [0x7F, 0x49, 0x49, 0x49, 0x41],
  [0x7F, 0x08, 0x08, 0x08, 0x7F],
  [0x7F, 0x40, 0x40, 0x40, 0x40],
  [0x7F, 0x02, 0x04, 0x02, 0x7F],
  [0x7F, 0x04, 0x08, 0x10, 0x7F],
  [0x3E, 0x41, 0x41, 0x41, 0x3E],
  [0x7F, 0x09, 0x09, 0x09, 0x06],
  [0x7F, 0x09, 0x19, 0x29, 0x46],
  [0x46, 0x49, 0x49, 0x49, 0x31],
  [0x01, 0x01, 0x7F, 0x01, 0x01],
  [0x1F, 0x20, 0x40, 0x20, 0x1F],
  [0x63, 0x14, 0x08, 0x14, 0x63],
  [0x03, 0x04, 0x78, 0x04, 0x03],
  [0x20, 0x54, 0x54, 0x54, 0x78],
  [0x7F, 0x48, 0x44, 0x44, 0x38],
  [0x38, 0x44, 0x44, 0x44, 0x20],
  [0x38, 0x44, 0x44, 0x48, 0x7F],
  [0x38, 0x54, 0x54, 0x54, 0x18],
  [0x08, 0x7E, 0x09, 0x01, 0x02],
  [0x08, 0x14, 0x54, 0x54, 0x3C],
  [0x7F, 0x08, 0x04, 0x04, 0x78],
  [0x00, 0x44, 0x7D, 0x40, 0x00],
  [0x00, 0x7F, 0x10, 0x28, 0x44],
  [0x00, 0x41, 0x7F, 0x40, 0x00],
  [0x7C, 0x04, 0x18, 0x04, 0x78],
  [0x7C, 0x08, 0x04, 0x04, 0x78],
  [0x38, 0x44, 0x44, 0x44, 0x38],
  [0x7C, 0x14, 0x14, 0x14, 0x08],
  [0x7C, 0x08, 0x04, 0x04, 0x08],
  [0x48, 0x54, 0x54, 0x54, 0x20],
  [0x04, 0x3F, 0x44, 0x40, 0x20],
  [0x3C, 0x40, 0x40, 0x20, 0x7C],
  [0x1C, 0x20, 0x40, 0x20, 0x1C],
  [0x44, 0x28, 0x10, 0x28, 0x44],
  [0x0C, 0x50, 0x50, 0x50, 0x3C],
  [0x32, 0x49, 0x79, 0x41, 0x3E],
  [0x00, 0x36, 0x36, 0x00, 0x00],
  [0x14, 0x14, 0x14, 0x14, 0x14],
  [0x08, 0x08, 0x08, 0x08, 0x08],
  [0x41, 0x22, 0x14, 0x08, 0x00],
  [0x08, 0x08, 0x3E, 0x08, 0x08],
  [0x00, 0x00, 0x00, 0x00, 0x00],
  [0x08, 0x2A, 0x1C, 0x2A, 0x08]]

/-- `fill_matrix`; its default returns 0. -/
def fillMatrix (symbolId : Byte) : Option (List Byte) := symbols[symbolId.toNat]?

/-- The loop of `font_add_symbol`, given up at the first byte refused. -/
def matrixFill : Buf → List Byte → Buf × Bool
  | buf, [] => (buf, true)
  | buf, byte :: matrix =>
    match bufByteFill buf byte with
    | (buf, true) => matrixFill buf matrix
    | (buf, false) => (buf, false)

def fontAddSymbol (symbol : Byte) (buf : Buf) : Buf × Bool :=
  match fillMatrix symbol with
  | none => (buf, false)
  | some matrix => matrixFill buf matrix

/-! ### `render.c` -/

def renderLeadingDisable : Byte := 0
def renderLeadingTen : Byte := 1
def renderLeadingHundred : Byte := 3

def renderSymbol (buf : Buf) (symbol : Byte) : Buf × Bool :=
  match fontAddSymbol symbol buf with
  | (buf, true) => bufByteFill buf 0
  | (buf, false) => (buf, false)

def isZeroNeeded (flag order : Byte) : Bool := flag &&& order = order

/-- A digit of `render_number`, left out unless it is needed. -/
def renderDigit (buf : Buf) (needed : Bool) (digit : Byte) : Buf × Bool :=
  if needed then renderSymbol buf digit else (buf, true)

def renderNumber (buf : Buf) (num leadingZero : Byte) : Buf × Bool :=
  let hundred := num / 100
  match renderDigit buf (hundred ≠ 0 || isZeroNeeded leadingZero renderLeadingHundred) hundred with
  | (buf, false) => (buf, false)
  | (buf, true) =>
    let rest := num % 100
    let ten := rest / 10
    match renderDigit buf
      (hundred ≠ 0 || ten ≠ 0 || isZeroNeeded leadingZero renderLeadingTen) ten with
    | (buf, false) => (buf, false)
    | (buf, true) => renderSymbol buf (rest % 10)

def renderWord : Buf → List Byte → Buf × Bool
  | buf, [] => (buf, true)
  | buf, symbol :: word =>
    match renderSymbol buf symbol with
    | (buf, true) => renderWord buf word
    | (buf, false) => (buf, false)

/-- The loop of `render_tail`, in at most so many turns. -/
def renderTailLoop : ℕ → Buf → Option Buf
  | 0, _ => none
  | turns + 1, buf =>
    match bufByteFill buf 0 with
    | (buf, true) => renderTailLoop turns buf
    | (buf, false) => some buf

/-- A picture has 64 cells, so the 65th turn finds none free (`renderTail_ends`). -/
def renderTail (buf : Buf) : Buf := (renderTailLoop 65 buf).getD buf

end LedServer.Avr
