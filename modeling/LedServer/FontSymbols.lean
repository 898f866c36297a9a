import LedServer.PiFont

set_option autoImplicit false

/-!
# What `fill_data` registers and what `get` finds

A character is one that a call of `fill_data` is about, and its glyph the one
that call has registered.
-/
namespace LedServer.Pi

namespace FontEntry

/-- The character, in UTF-8. -/
def bytes : FontEntry → Text
  | .basic key _ => [key]
  | .german second _ => [0xC3, second]
  | .russian d0 second _ => [if d0 then 0xD0 else 0xD1, second]
  | .mapRussian d0 second _ => [if d0 then 0xD0 else 0xD1, second]

/-- The symbol the entry gives an ASCII character. -/
def asciiSymbol (s : Byte) : FontEntry → Option Matrix
  | .basic key symbol => if key = s then some (transpose symbol) else none
  | _ => none

def isExtended : FontEntry → Bool
  | .basic _ _ => false
  | _ => true

end FontEntry

/-- The first of two entries for a character is the one that counts. -/
def asciiGlyph (s : Byte) : Matrix := (fontEntries.findSome? (FontEntry.asciiSymbol s)).getD []

def FontEntry.glyph : FontEntry → Matrix
  | .basic key _ => asciiGlyph key
  | .german _ symbol | .russian _ _ symbol => transpose symbol
  | .mapRussian _ _ ascii => asciiGlyph ascii

/-- A character of a text: ASCII, or one that `fill_data` has two bytes for. -/
inductive FontSymbol where
  | ascii (s : Byte) (isBasic : isBasic s = true)
  | extended (e : FontEntry) (registered : e ∈ fontEntries) (isExtended : e.isExtended = true)

namespace FontSymbol

def bytes : FontSymbol → Text
  | .ascii s _ => [s]
  | .extended e _ _ => e.bytes

def glyph : FontSymbol → Matrix
  | .ascii s _ => asciiGlyph s
  | .extended e _ _ => e.glyph

end FontSymbol

/-- The symbol of a pair of halves, the second of them in `s`. -/
def pairSymbol (firstByte s : Byte) : Matrix :=
  if findSymbol fillData (toUint16Pair s firstByte) = [] then
    findSymbol fillData (toUint16 0x2A)
  else findSymbol fillData (toUint16Pair s firstByte)

/-! ### A byte at a time -/

theorem pixelize_cons (firstByte s : Byte) (src : Text) :
    pixelize firstByte (s :: src) =
      ((pixelize (fontGet fillData firstByte s).1 src).1,
        (fontGet fillData firstByte s).2 ++
          (pixelize (fontGet fillData firstByte s).1 src).2) := by
  have hone : pixelize firstByte [s] = fontGet fillData firstByte s := by
    rw [pixelize, List.foldl_cons, List.foldl_nil, pixelStep, List.nil_append]
  rw [← List.singleton_append, pixelize_append, hone]

theorem pixelize_basic {s : Byte} (h : isBasic s = true) (firstByte : Byte) (src : Text) :
    pixelize firstByte (s :: src) =
      ((pixelize firstByte src).1,
        findSymbol fillData (toUint16 s) ++ (pixelize firstByte src).2) := by
  rw [pixelize_cons, fontGet, if_pos h]

theorem pixelize_first {s : Byte} (h : isBasic s = false) (src : Text) :
    pixelize 0 (s :: src) = pixelize s src := by
  rw [pixelize_cons, fontGet, if_neg (by simp [h]), if_pos rfl, List.nil_append]

theorem pixelize_second {s firstByte : Byte} (h : isBasic s = false) (hfirst : firstByte ≠ 0)
    (src : Text) :
    pixelize firstByte (s :: src) =
      ((pixelize 0 src).1, pairSymbol firstByte s ++ (pixelize 0 src).2) := by
  rw [pixelize_cons, fontGet, if_neg (by simp [h]), if_neg hfirst]
  unfold pairSymbol
  by_cases hmissing : findSymbol fillData (toUint16Pair s firstByte) = []
  · rw [if_pos hmissing, if_pos hmissing]
  · rw [if_neg hmissing, if_neg hmissing]

theorem ne_zero_of_not_basic {s : Byte} (h : isBasic s = false) : s ≠ 0 := by
  rintro rfl
  cases h

/-! ### The ASCII part of the map -/

theorem lookup_insertSymbol (data : SymbolMap) (key key' : SymbolKey) (symbol : Matrix) :
    (insertSymbol data key' symbol).lookup key =
      (data.lookup key).or (if key' = key then some symbol else none) := by
  unfold insertSymbol
  split_ifs with hthere hkey hkey
  · obtain ⟨old, hold⟩ := Option.isSome_iff_exists.mp hthere
    rw [← hkey, hold, Option.some_or]
  · rw [Option.or_none]
  · rw [List.lookup_append, hkey]
    simp
  · have hne : (key == key') = false := by simpa using Ne.symm hkey
    rw [List.lookup_append, List.lookup_cons, hne]
    rfl

theorem toUint16_inj {s s' : Byte} : toUint16 s = toUint16 s' ↔ s = s' := by
  unfold toUint16
  constructor
  · intro h
    bv_omega
  · rintro rfl
    rfl

/-- The halves of the leads of `fill_data` are above the ASCII keys. -/
theorem toUint16Pair_ne {first : Byte} (hfirst : first = 0xC3 ∨ first = 0xD0 ∨ first = 0xD1)
    (second : Byte) {s : Byte} (hs : isBasic s = true) :
    toUint16Pair first second ≠ toUint16 s := by
  have hlead : 127 < ((first &&& 0x1F).setWidth 16 <<< 6 : SymbolKey).toNat := by
    rcases hfirst with rfl | rfl | rfl <;> decide
  have hhigh : 127 < (toUint16Pair first second).toNat := by
    rw [toUint16Pair, BitVec.toNat_or]
    exact hlead.trans_le Nat.left_le_or
  have hlow : (toUint16 s).toNat ≤ 127 := by
    have hle : s.toNat ≤ 127 := by simpa [isBasic] using hs
    rwa [toUint16, BitVec.toNat_setWidth, Nat.mod_eq_of_lt (by omega)]
  intro heq
  rw [heq] at hhigh
  omega

theorem lookup_addEntry {s : Byte} (hs : isBasic s = true) (data : SymbolMap) (e : FontEntry) :
    (addEntry data e).lookup (toUint16 s) =
      (data.lookup (toUint16 s)).or (e.asciiSymbol s) := by
  have hextended : ∀ (first second : Byte) (symbol : Matrix) (rotate : Bool),
      first = 0xC3 ∨ first = 0xD0 ∨ first = 0xD1 →
      (addExtendedSymbol data first second symbol rotate).lookup (toUint16 s) =
        data.lookup (toUint16 s) := by
    intro first second symbol rotate hfirst
    rw [addExtendedSymbol, lookup_insertSymbol, if_neg (toUint16Pair_ne hfirst second hs),
      Option.or_none]
  have hrussian : ∀ (d0 : Bool) (second : Byte) (symbol : Matrix) (rotate : Bool),
      (addExtendedSymbol data (if d0 then 0xD0 else 0xD1) second symbol rotate).lookup
        (toUint16 s) = data.lookup (toUint16 s) := by
    intro d0 second symbol rotate
    cases d0 with
    | false => exact hextended _ _ _ _ (.inr (.inr rfl))
    | true => exact hextended _ _ _ _ (.inr (.inl rfl))
  cases e with
  | basic key symbol =>
    rw [addEntry, addBasicSymbol, lookup_insertSymbol, FontEntry.asciiSymbol]
    simp only [toUint16_inj]
  | german second symbol =>
    rw [addEntry, hextended _ _ _ _ (.inl rfl)]
    exact Option.or_none.symm
  | russian d0 second symbol =>
    rw [addEntry, hrussian]
    exact Option.or_none.symm
  | mapRussian d0 second basic =>
    have hnone : (FontEntry.mapRussian d0 second basic).asciiSymbol s = none := rfl
    rw [addEntry, hnone, Option.or_none]
    by_cases hmissing : findSymbol data (toUint16 basic) = []
    · rw [if_pos hmissing]
    · rw [if_neg hmissing, hrussian]

theorem lookup_foldl_addEntry {s : Byte} (hs : isBasic s = true) (es : List FontEntry)
    (data : SymbolMap) :
    (es.foldl addEntry data).lookup (toUint16 s) =
      (data.lookup (toUint16 s)).or (es.findSome? (FontEntry.asciiSymbol s)) := by
  induction es generalizing data with
  | nil => rw [List.foldl_nil, List.findSome?_nil, Option.or_none]
  | cons e es ih =>
    rw [List.foldl_cons, ih, lookup_addEntry hs, Option.or_assoc, List.findSome?_cons]
    cases e.asciiSymbol s <;> rfl

theorem findSymbol_ascii {s : Byte} (hs : isBasic s = true) :
    findSymbol fillData (toUint16 s) = asciiGlyph s := by
  rw [findSymbol, fillData, lookup_foldl_addEntry hs, List.lookup_nil, Option.none_or]
  rfl

/-! ### A character at a time -/

/-- `add_extended_symbol` puts the lead byte above the other one, `get` below it:
what it finds is another symbol or none, but for the one with equal low bits. -/
theorem extended_pixelized :
    ∀ e ∈ fontEntries, e.isExtended = true →
      (pixelize 0 e.bytes).1 = 0 ∧ (pixelize 0 e.bytes).2.length = e.glyph.length ∧
        e.bytes.length = 2 ∧ ((pixelize 0 e.bytes).2 = e.glyph ↔ e.bytes = [0xD0, 0x90]) := by
  decide +kernel

theorem FontSymbol.pixelized (c : FontSymbol) :
    (pixelize 0 c.bytes).1 = 0 ∧ (pixelize 0 c.bytes).2.length = c.glyph.length ∧
      ((pixelize 0 c.bytes).2 = c.glyph ↔ (c.bytes.length = 2 → c.bytes = [0xD0, 0x90])) := by
  cases c with
  | ascii s hs =>
    have hall : pixelize 0 [s] = (0, asciiGlyph s) := by
      rw [pixelize_basic hs, findSymbol_ascii hs]
      exact Prod.ext rfl (List.append_nil _)
    refine ⟨congrArg Prod.fst hall, congrArg (List.length ∘ Prod.snd) hall, ?_⟩
    exact iff_of_true (congrArg Prod.snd hall) fun hlength => absurd hlength (by simp [FontSymbol.bytes])
  | extended e he hextended =>
    obtain ⟨hfirst, hlength, htwo, hiff⟩ := extended_pixelized e he hextended
    refine ⟨hfirst, hlength, ?_⟩
    rw [show (pixelize 0 (FontSymbol.extended e he hextended).bytes).2 = (pixelize 0 e.bytes).2
      from rfl, show (FontSymbol.extended e he hextended).glyph = e.glyph from rfl, hiff]
    exact ⟨fun h _ => h, fun h => h htwo⟩

/-- Every character leaves `m_first_byte` clear for the next one. -/
theorem pixelize_symbols (cs : List FontSymbol) :
    pixelize 0 (cs.flatMap FontSymbol.bytes) =
      (0, cs.flatMap fun c => (pixelize 0 c.bytes).2) := by
  induction cs with
  | nil => rfl
  | cons c cs ih =>
    rw [List.flatMap_cons, List.flatMap_cons, pixelize_append, c.pixelized.1, ih]

theorem flatMap_eq_iff_of_length {α β : Type} {f g : α → List β}
    (h : ∀ c, (f c).length = (g c).length) (cs : List α) :
    cs.flatMap f = cs.flatMap g ↔ ∀ c ∈ cs, f c = g c := by
  induction cs with
  | nil => simp
  | cons c cs ih =>
    rw [List.flatMap_cons, List.flatMap_cons, List.forall_mem_cons, ← ih]
    constructor
    · exact fun heq => List.append_inj heq (h c)
    · rintro ⟨hc, hcs⟩
      rw [hc, hcs]

/-- A text of registered characters is rendered as registered exactly when it
has no two-byte character but U+0410. -/
theorem pixelize_registered_iff (cs : List FontSymbol) :
    (pixelize 0 (cs.flatMap FontSymbol.bytes)).2 = cs.flatMap FontSymbol.glyph ↔
      ∀ c ∈ cs, c.bytes.length = 2 → c.bytes = [0xD0, 0x90] := by
  rw [pixelize_symbols, flatMap_eq_iff_of_length fun c => c.pixelized.2.1]
  exact forall₂_congr fun c _ => c.pixelized.2.2

/-- The first two-byte entry is an umlaut, and it comes out as an asterisk. -/
theorem umlaut_lost :
    ∃ c : FontSymbol, c.bytes = [0xC3, 0x84] ∧ (pixelize 0 c.bytes).2 = asciiGlyph 0x2A ∧
      c.glyph ≠ asciiGlyph 0x2A := by
  refine ⟨.extended (.german 0x84 [0x22, 0x0C, 0x1E, 0x33, 0x33, 0x3F, 0x33, 0x33])
    (by simp [fontEntries]) rfl, rfl, ?_, ?_⟩
  · decide +kernel
  · decide +kernel

end LedServer.Pi
