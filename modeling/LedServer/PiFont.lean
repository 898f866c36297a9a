import LedServer.Constant

set_option autoImplicit false

/-!
# `font.cpp` and `render.cpp`

A text is its bytes. `render_t` is asked for the default format only: the whole
text, not inverted.
-/
namespace LedServer.Pi

abbrev Text := List Byte

/-- A string literal of the source, which are all ASCII. -/
def text (s : String) : Text := s.toList.map fun c => BitVec.ofNat 8 c.toNat

abbrev Matrix := List Byte

abbrev SymbolKey := BitVec 16

/-- `font_t::map_t`, as the list of its insertions. -/
abbrev SymbolMap := List (SymbolKey × Matrix)

def matrixSize : ℕ := 8

/-- One column: bit `mask` of every row, the last row first. -/
def rotated (src : Matrix) (mask : ℕ) : Byte :=
  src.reverse.foldl (fun column row => column <<< 1 ||| if row.getLsbD mask then 1 else 0) 0

def transpose (src : Matrix) : Matrix :=
  if src.length ≠ matrixSize then src else (List.range matrixSize).map (rotated src)

def isBasic (s : Byte) : Bool := s.toNat ≤ 127

def toUint16 (s : Byte) : SymbolKey := s.setWidth 16

def toUint16Pair (first second : Byte) : SymbolKey :=
  (first &&& 0x1F).setWidth 16 <<< 6 ||| (second &&& 0x3F).setWidth 16

def findSymbol (symbolMap : SymbolMap) (key : SymbolKey) : Matrix :=
  (symbolMap.lookup key).getD []

/-- `std::map::insert`, which keeps the entry that is there. -/
def insertSymbol (data : SymbolMap) (key : SymbolKey) (symbol : Matrix) : SymbolMap :=
  if (data.lookup key).isSome then data else data ++ [(key, symbol)]

def addBasicSymbol (data : SymbolMap) (key : Byte) (symbol : Matrix) : SymbolMap :=
  insertSymbol data (toUint16 key) (transpose symbol)

def addExtendedSymbol (data : SymbolMap) (first second : Byte) (symbol : Matrix)
    (rotate : Bool) : SymbolMap :=
  insertSymbol data (toUint16Pair first second) (if rotate then transpose symbol else symbol)

/-- The calls `fill_data` is made of. -/
inductive FontEntry where
  | basic (key : Byte) (symbol : Matrix)
  | german (second : Byte) (symbol : Matrix)
  | russian (d0 : Bool) (second : Byte) (symbol : Matrix)
  | mapRussian (d0 : Bool) (second : Byte) (basic : Byte)

def addEntry (data : SymbolMap) : FontEntry → SymbolMap
  | .basic key symbol => addBasicSymbol data key symbol
  | .german second symbol => addExtendedSymbol data 0xC3 second symbol true
  | .russian d0 second symbol =>
    addExtendedSymbol data (if d0 then 0xD0 else 0xD1) second symbol true
  | .mapRussian d0 second basic =>
    if findSymbol data (toUint16 basic) = [] then data
    else
      addExtendedSymbol data (if d0 then 0xD0 else 0xD1) second (findSymbol data (toUint16 basic))
        false

def fontEntries : List FontEntry := [
  .basic 0x20 [0x00, 0x00, 0x00, 0x00, 0x00, 0x00, 0x00, 0x00],
  .basic 0x21 [0x18, 0x3C, 0x3C, 0x18, 0x18, 0x00, 0x18, 0x00],
  .basic 0x22 [0x36, 0x36, 0x00, 0x00, 0x00, 0x00, 0x00, 0x00],
  .basic 0x23 [0x36, 0x36, 0x7F, 0x36, 0x7F, 0x36, 0x36, 0x00],
  .basic 0x24 [0x0C, 0x3E, 0x03, 0x1E, 0x30, 0x1F, 0x0C, 0x00],
  .basic 0x25 [0x00, 0x63, 0x33, 0x18, 0x0C, 0x66, 0x63, 0x00],
  .basic 0x26 [0x1C, 0x36, 0x1C, 0x6E, 0x3B, 0x33, 0x6E, 0x00],
  .basic 0x27 [0x06, 0x06, 0x03, 0x00, 0x00, 0x00, 0x00, 0x00],
  .basic 0x28 [0x18, 0x0C, 0x06, 0x06, 0x06, 0x0C, 0x18, 0x00],
  .basic 0x29 [0x06, 0x0C, 0x18, 0x18, 0x18, 0x0C, 0x06, 0x00],
  .basic 0x2A [0x00, 0x66, 0x3C, 0xFF, 0x3C, 0x66, 0x00, 0x00],
  .basic 0x2B [0x00, 0x0C, 0x0C, 0x3F, 0x0C, 0x0C, 0x00, 0x00],
  .basic 0x2C [0x00, 0x00, 0x00, 0x00, 0x00, 0x0C, 0x0C, 0x06],
  .basic 0x2D [0x00, 0x00, 0x00, 0x3F, 0x00, 0x00, 0x00, 0x00],
  .basic 0x2E [0x00, 0x00, 0x00, 0x00, 0x00, 0x0C, 0x0C, 0x00],
  .basic 0x2F [0x60, 0x30, 0x18, 0x0C, 0x06, 0x03, 0x01, 0x00],
  .basic 0x30 [0x3E, 0x63, 0x73, 0x7B, 0x6F, 0x67, 0x3E, 0x00],
  .basic 0x31 [0x0C, 0x0E, 0x0C, 0x0C, 0x0C, 0x0C, 0x3F, 0x00],
  .basic 0x32 [0x1E, 0x33, 0x30, 0x1C, 0x06, 0x33, 0x3F, 0x00],
  .basic 0x33 [0x1E, 0x33, 0x30, 0x1C, 0x30, 0x33, 0x1E, 0x00],
  .basic 0x34 [0x38, 0x3C, 0x36, 0x33, 0x7F, 0x30, 0x78, 0x00],
  .basic 0x35 [0x3F, 0x03, 0x1F, 0x30, 0x30, 0x33, 0x1E, 0x00],
  .basic 0x36 [0x1C, 0x06, 0x03, 0x1F, 0x33, 0x33, 0x1E, 0x00],
  .basic 0x37 [0x3F, 0x33, 0x30, 0x18, 0x0C, 0x0C, 0x0C, 0x00],
  .basic 0x38 [0x1E, 0x33, 0x33, 0x1E, 0x33, 0x33, 0x1E, 0x00],
  .basic 0x39 [0x1E, 0x33, 0x33, 0x3E, 0x30, 0x18, 0x0E, 0x00],
  .basic 0x3A [0x00, 0x0C, 0x0C, 0x00, 0x00, 0x0C, 0x0C, 0x00],
  .basic 0x2F [0x00, 0x0C, 0x0C, 0x00, 0x00, 0x0C, 0x0C, 0x06],
  .basic 0x3C [0x18, 0x0C, 0x06, 0x03, 0x06, 0x0C, 0x18, 0x00],
  .basic 0x3D [0x00, 0x00, 0x3F, 0x00, 0x00, 0x3F, 0x00, 0x00],
  .basic 0x3E [0x06, 0x0C, 0x18, 0x30, 0x18, 0x0C, 0x06, 0x00],
  .basic 0x3F [0x1E, 0x33, 0x30, 0x18, 0x0C, 0x00, 0x0C, 0x00],
  .basic 0x40 [0x3E, 0x63, 0x7B, 0x7B, 0x7B, 0x03, 0x1E, 0x00],
  .basic 0x41 [0x0C, 0x1E, 0x33, 0x33, 0x3F, 0x33, 0x33, 0x00],
  .basic 0x42 [0x3F, 0x66, 0x66, 0x3E, 0x66, 0x66, 0x3F, 0x00],
  .basic 0x43 [0x3C, 0x66, 0x03, 0x03, 0x03, 0x66, 0x3C, 0x00],
  .basic 0x44 [0x1F, 0x36, 0x66, 0x66, 0x66, 0x36, 0x1F, 0x00],
  .basic 0x45 [0x7F, 0x46, 0x16, 0x1E, 0x16, 0x46, 0x7F, 0x00],
  .basic 0x46 [0x7F, 0x46, 0x16, 0x1E, 0x16, 0x06, 0x0F, 0x00],
  .basic 0x47 [0x3C, 0x66, 0x03, 0x03, 0x73, 0x66, 0x7C, 0x00],
  .basic 0x48 [0x33, 0x33, 0x33, 0x3F, 0x33, 0x33, 0x33, 0x00],
  .basic 0x49 [0x1E, 0x0C, 0x0C, 0x0C, 0x0C, 0x0C, 0x1E, 0x00],
  .basic 0x4A [0x78, 0x30, 0x30, 0x30, 0x33, 0x33, 0x1E, 0x00],
  .basic 0x4B [0x67, 0x66, 0x36, 0x1E, 0x36, 0x66, 0x67, 0x00],
  .basic 0x4C [0x0F, 0x06, 0x06, 0x06, 0x46, 0x66, 0x7F, 0x00],
  .basic 0x4D [0x63, 0x77, 0x7F, 0x7F, 0x6B, 0x63, 0x63, 0x00],
  .basic 0x4E [0x63, 0x67, 0x6F, 0x7B, 0x73, 0x63, 0x63, 0x00],
  .basic 0x4F [0x1C, 0x36, 0x63, 0x63, 0x63, 0x36, 0x1C, 0x00],
  .basic 0x50 [0x3F, 0x66, 0x66, 0x3E, 0x06, 0x06, 0x0F, 0x00],
  .basic 0x51 [0x1E, 0x33, 0x33, 0x33, 0x3B, 0x1E, 0x38, 0x00],
  .basic 0x52 [0x3F, 0x66, 0x66, 0x3E, 0x36, 0x66, 0x67, 0x00],
  .basic 0x53 [0x1E, 0x33, 0x07, 0x0E, 0x38, 0x33, 0x1E, 0x00],
  .basic 0x54 [0x3F, 0x2D, 0x0C, 0x0C, 0x0C, 0x0C, 0x1E, 0x00],
  .basic 0x55 [0x33, 0x33, 0x33, 0x33, 0x33, 0x33, 0x3F, 0x00],
  .basic 0x56 [0x33, 0x33, 0x33, 0x33, 0x33, 0x1E, 0x0C, 0x00],
  .basic 0x57 [0x63, 0x63, 0x63, 0x6B, 0x7F, 0x77, 0x63, 0x00],
  .basic 0x58 [0x63, 0x63, 0x36, 0x1C, 0x1C, 0x36, 0x63, 0x00],
  .basic 0x59 [0x33, 0x33, 0x33, 0x1E, 0x0C, 0x0C, 0x1E, 0x00],
  .basic 0x5A [0x7F, 0x63, 0x31, 0x18, 0x4C, 0x66, 0x7F, 0x00],
  .basic 0x5B [0x1E, 0x06, 0x06, 0x06, 0x06, 0x06, 0x1E, 0x00],
  .basic 0x5C [0x03, 0x06, 0x0C, 0x18, 0x30, 0x60, 0x40, 0x00],
  .basic 0x5D [0x1E, 0x18, 0x18, 0x18, 0x18, 0x18, 0x1E, 0x00],
  .basic 0x5E [0x08, 0x1C, 0x36, 0x63, 0x00, 0x00, 0x00, 0x00],
  .basic 0x5F [0x00, 0x00, 0x00, 0x00, 0x00, 0x00, 0x00, 0xFF],
  .basic 0x60 [0x0C, 0x0C, 0x18, 0x00, 0x00, 0x00, 0x00, 0x00],
  .basic 0x61 [0x00, 0x00, 0x1E, 0x30, 0x3E, 0x33, 0x6E, 0x00],
  .basic 0x62 [0x07, 0x06, 0x06, 0x3E, 0x66, 0x66, 0x3B, 0x00],
  .basic 0x63 [0x00, 0x00, 0x1E, 0x33, 0x03, 0x33, 0x1E, 0x00],
  .basic 0x64 [0x38, 0x30, 0x30, 0x3E, 0x33, 0x33, 0x6E, 0x00],
  .basic 0x65 [0x00, 0x00, 0x1E, 0x33, 0x3F, 0x03, 0x1E, 0x00],
  .basic 0x66 [0x1C, 0x36, 0x06, 0x0F, 0x06, 0x06, 0x0F, 0x00],
  .basic 0x67 [0x00, 0x00, 0x6E, 0x33, 0x33, 0x3E, 0x30, 0x1F],
  .basic 0x68 [0x07, 0x06, 0x36, 0x6E, 0x66, 0x66, 0x67, 0x00],
  .basic 0x69 [0x0C, 0x00, 0x0E, 0x0C, 0x0C, 0x0C, 0x1E, 0x00],
  .basic 0x6A [0x30, 0x00, 0x30, 0x30, 0x30, 0x33, 0x33, 0x1E],
  .basic 0x6B [0x07, 0x06, 0x66, 0x36, 0x1E, 0x36, 0x67, 0x00],
  .basic 0x6C [0x0E, 0x0C, 0x0C, 0x0C, 0x0C, 0x0C, 0x1E, 0x00],
  .basic 0x6D [0x00, 0x00, 0x33, 0x7F, 0x7F, 0x6B, 0x63, 0x00],
  .basic 0x6E [0x00, 0x00, 0x1F, 0x33, 0x33, 0x33, 0x33, 0x00],
  .basic 0x6F [0x00, 0x00, 0x1E, 0x33, 0x33, 0x33, 0x1E, 0x00],
  .basic 0x70 [0x00, 0x00, 0x3B, 0x66, 0x66, 0x3E, 0x06, 0x0F],
  .basic 0x71 [0x00, 0x00, 0x6E, 0x33, 0x33, 0x3E, 0x30, 0x78],
  .basic 0x72 [0x00, 0x00, 0x3B, 0x6E, 0x66, 0x06, 0x0F, 0x00],
  .basic 0x73 [0x00, 0x00, 0x3E, 0x03, 0x1E, 0x30, 0x1F, 0x00],
  .basic 0x74 [0x08, 0x0C, 0x3E, 0x0C, 0x0C, 0x2C, 0x18, 0x00],
  .basic 0x75 [0x00, 0x00, 0x33, 0x33, 0x33, 0x33, 0x6E, 0x00],
  .basic 0x76 [0x00, 0x00, 0x33, 0x33, 0x33, 0x1E, 0x0C, 0x00],
  .basic 0x77 [0x00, 0x00, 0x63, 0x6B, 0x7F, 0x7F, 0x36, 0x00],
  .basic 0x78 [0x00, 0x00, 0x63, 0x36, 0x1C, 0x36, 0x63, 0x00],
  .basic 0x79 [0x00, 0x00, 0x33, 0x33, 0x33, 0x3E, 0x30, 0x1F],
  .basic 0x7A [0x00, 0x00, 0x3F, 0x19, 0x0C, 0x26, 0x3F, 0x00],
  .basic 0x7B [0x38, 0x0C, 0x0C, 0x07, 0x0C, 0x0C, 0x38, 0x00],
  .basic 0x7C [0x18, 0x18, 0x18, 0x00, 0x18, 0x18, 0x18, 0x00],
  .basic 0x7D [0x07, 0x0C, 0x0C, 0x38, 0x0C, 0x0C, 0x07, 0x00],
  .basic 0x7E [0x6E, 0x3B, 0x00, 0x00, 0x00, 0x00, 0x00, 0x00],
  .german 0x84 [0x22, 0x0C, 0x1E, 0x33, 0x33, 0x3F, 0x33, 0x33],
  .german 0xA4 [0x22, 0x00, 0x1E, 0x30, 0x3E, 0x33, 0x6E, 0x00],
  .german 0x96 [0x22, 0x1C, 0x36, 0x63, 0x63, 0x63, 0x36, 0x1C],
  .german 0xB6 [0x22, 0x00, 0x1E, 0x33, 0x33, 0x33, 0x1E, 0x00],
  .german 0x9C [0x22, 0x33, 0x33, 0x33, 0x33, 0x33, 0x33, 0x3F],
  .german 0xBC [0x22, 0x00, 0x33, 0x33, 0x33, 0x33, 0x6E, 0x00],
  .mapRussian true 0x90 0x41,
  .russian true 0x91 [0x3F, 0x3F, 0x03, 0x1F, 0x23, 0x23, 0x1F, 0x00],
  .mapRussian true 0x95 0x45,
  .mapRussian true 0x9A 0x4B,
  .mapRussian true 0x9C 0x4D,
  .mapRussian true 0x9D 0x48,
  .mapRussian true 0x9E 0x4F,
  .mapRussian true 0xA0 0x50,
  .mapRussian true 0xA1 0x43,
  .mapRussian true 0xA2 0x54,
  .mapRussian true 0xB0 0x61,
  .russian true 0xB1 [0x7E, 0x03, 0x06, 0x3E, 0x43, 0x43, 0x3F, 0x00],
  .mapRussian true 0xB5 0x65,
  .mapRussian true 0xB9 0x6B,
  .mapRussian true 0xBE 0x6F,
  .mapRussian false 0x80 0x70,
  .mapRussian false 0x81 0x63]

def fillData : SymbolMap := fontEntries.foldl addEntry []

/-- `font_t::get`, given `m_first_byte`. -/
def fontGet (data : SymbolMap) (firstByte : Byte) (s : Byte) : Byte × Matrix :=
  if isBasic s then (firstByte, findSymbol data (toUint16 s))
  else if firstByte = 0 then (s, [])
  else if findSymbol data (toUint16Pair s firstByte) = [] then
    (0, findSymbol data (toUint16 0x2A))
  else (0, findSymbol data (toUint16Pair s firstByte))

/-- The loop body of `render_t::pixelize`, on `m_first_byte` and the matrix. -/
def pixelStep (p : Byte × Matrix) (s : Byte) : Byte × Matrix :=
  ((fontGet fillData p.1 s).1, p.2 ++ (fontGet fillData p.1 s).2)

def pixelize (firstByte : Byte) (src : Text) : Byte × Matrix := src.foldl pixelStep (firstByte, [])

/-! ### What a text with a blank behind it comes to -/

theorem pixelize_append (firstByte : Byte) (src rest : Text) :
    pixelize firstByte (src ++ rest) =
      ((pixelize (pixelize firstByte src).1 rest).1,
        (pixelize firstByte src).2 ++ (pixelize (pixelize firstByte src).1 rest).2) := by
  have hfrom : ∀ (rest : Text) (p : Byte × Matrix),
      rest.foldl pixelStep p = ((pixelize p.1 rest).1, p.2 ++ (pixelize p.1 rest).2) := by
    intro rest
    induction rest with
    | nil => simp [pixelize]
    | cons s rest ih =>
      intro p
      rw [pixelize, List.foldl_cons, List.foldl_cons, ih, ih]
      simp only [pixelStep, List.nil_append, List.append_assoc]
  rw [pixelize, List.foldl_append]
  exact hfrom rest _

theorem insertSymbol_keeps {data : SymbolMap} {key : SymbolKey} {symbol : Matrix}
    (h : data.lookup key = some symbol) (key' : SymbolKey) (symbol' : Matrix) :
    (insertSymbol data key' symbol').lookup key = some symbol := by
  unfold insertSymbol
  split
  · exact h
  · rw [List.lookup_append, h]
    rfl

/-- An entry that is in the map stays there. -/
theorem addEntry_keeps {data : SymbolMap} {key : SymbolKey} {symbol : Matrix}
    (h : data.lookup key = some symbol) (e : FontEntry) :
    (addEntry data e).lookup key = some symbol := by
  cases e with
  | basic key' symbol' => exact insertSymbol_keeps h _ _
  | german second symbol' => exact insertSymbol_keeps h _ _
  | russian d0 second symbol' => exact insertSymbol_keeps h _ _
  | mapRussian d0 second basic =>
    rw [addEntry]
    by_cases hnone : findSymbol data (toUint16 basic) = []
    · rw [if_pos hnone]
      exact h
    · rw [if_neg hnone]
      exact insertSymbol_keeps h _ _

theorem foldl_addEntry_keeps {key : SymbolKey} {symbol : Matrix} (es : List FontEntry)
    {data : SymbolMap} (h : data.lookup key = some symbol) :
    (es.foldl addEntry data).lookup key = some symbol := by
  induction es generalizing data with
  | nil => exact h
  | cons e es ih =>
    apply ih
    exact addEntry_keeps h e

def blank : Byte := 0x20

theorem findSymbol_blank :
    findSymbol fillData (toUint16 blank) = List.replicate matrixSize 0 := by
  have hfirst : (addEntry [] (.basic 0x20 (List.replicate matrixSize 0))).lookup (toUint16 blank) =
      some (List.replicate matrixSize 0) := by decide
  have hentries : fontEntries =
      .basic 0x20 (List.replicate matrixSize 0) :: fontEntries.tail := rfl
  rw [findSymbol, fillData, hentries, List.foldl_cons, foldl_addEntry_keeps _ hfirst]
  rfl

/-- A blank is eight columns, whatever the half of a symbol before it. -/
theorem pixelize_blank_ne (firstByte : Byte) (src : Text) :
    (pixelize firstByte (src ++ [blank])).2 ≠ [] := by
  have hone : ∀ firstByte, (pixelize firstByte [blank]).2 = List.replicate matrixSize 0 := by
    intro firstByte
    have hbasic : isBasic blank = true := by decide
    have hget : fontGet fillData firstByte blank = (firstByte, List.replicate matrixSize 0) := by
      rw [fontGet, if_pos hbasic, findSymbol_blank]
    rw [pixelize, List.foldl_cons, List.foldl_nil, pixelStep, hget, List.nil_append]
  rw [pixelize_append, hone]
  intro hnil
  have hlength := congrArg List.length hnil
  rw [List.length_append, List.length_replicate, List.length_nil] at hlength
  unfold matrixSize at hlength
  omega

end LedServer.Pi
