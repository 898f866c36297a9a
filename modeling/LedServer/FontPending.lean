import LedServer.FontSymbols

set_option autoImplicit false

/-!
# `m_first_byte` between texts

A text leaves half a symbol behind when it has an odd number of bytes above
ASCII. `font_t` is not given a first byte by its constructor.
-/
namespace LedServer.Pi

/-- The bytes above ASCII. -/
def halves (src : Text) : List Byte := src.filter fun s => !isBasic s

/-- `m_first_byte` after a text: nothing, or the last half. -/
def leftPending (firstByte : Byte) (src : Text) : Byte :=
  if ((halves src).length + if firstByte = 0 then 0 else 1) % 2 = 0 then 0
  else (halves src).getLast?.getD firstByte

/-- The columns of a text are the same with a half pending before it and
without. `p` is the last half, and `owed` the symbol that is out on one side
only, if there is one: the next half has to bring it out on the other side, and
the ASCII characters before that half can be nothing else. -/
def LinesUp : Byte → Option Matrix → Text → Prop
  | _, owed, [] => owed = none
  | p, none, s :: src =>
    if isBasic s then LinesUp p none src else LinesUp s (some (pairSymbol p s)) src
  | p, some symbol, s :: src =>
    if isBasic s then
      (findSymbol fillData (toUint16 s) = [] ∨ findSymbol fillData (toUint16 s) = symbol) ∧
        LinesUp p (some symbol) src
    else pairSymbol p s = symbol ∧ LinesUp s none src

/-- Two halves before a text that make no difference to it. -/
def Alike (p q : Byte) (src : Text) : Prop :=
  if p = 0 then q = 0 ∨ LinesUp q none src
  else if q = 0 then LinesUp p none src
  else ∀ s ∈ src.find? fun s => !isBasic s, pairSymbol p s = pairSymbol q s

/-! ### The pending half -/

theorem halves_basic {s : Byte} (h : isBasic s = true) (src : Text) :
    halves (s :: src) = halves src := List.filter_cons_of_neg (by simp [h])

theorem halves_cons {s : Byte} (h : isBasic s = false) (src : Text) :
    halves (s :: src) = s :: halves src := List.filter_cons_of_pos (by simp [h])

theorem leftPending_first {s : Byte} (h : isBasic s = false) (src : Text) :
    leftPending 0 (s :: src) = leftPending s src := by
  rw [leftPending, leftPending, halves_cons h, if_neg (ne_zero_of_not_basic h), if_pos rfl,
    List.length_cons, List.getLast?_cons]
  rfl

theorem leftPending_second {s firstByte : Byte} (h : isBasic s = false) (hfirst : firstByte ≠ 0)
    (src : Text) : leftPending firstByte (s :: src) = leftPending 0 src := by
  rw [leftPending, leftPending, halves_cons h, if_neg hfirst, if_pos rfl, List.length_cons]
  cases halves src with
  | nil => rfl
  | cons half rest =>
    have hparity : ((half :: rest).length + 1 + 1) % 2 = ((half :: rest).length + 0) % 2 := by
      omega
    rw [hparity, List.getLast?_cons_cons, List.getLast?_cons]
    rfl

theorem pixelize_fst (firstByte : Byte) (src : Text) :
    (pixelize firstByte src).1 = leftPending firstByte src := by
  induction src generalizing firstByte with
  | nil =>
    by_cases hfirst : firstByte = 0
    · rw [hfirst]
      rfl
    · rw [leftPending, if_neg hfirst]
      rfl
  | cons s src ih =>
    cases hs : isBasic s with
    | true => rw [pixelize_basic hs, leftPending, halves_basic hs, ← leftPending, ih]
    | false =>
      by_cases hfirst : firstByte = 0
      · rw [hfirst, pixelize_first hs, leftPending_first hs, ih]
      · rw [pixelize_second hs hfirst, leftPending_second hs hfirst, ih]

theorem foldl_pixelize (firstByte : Byte) (earlier : List Text) :
    earlier.foldl (fun p src => (pixelize p src).1) firstByte =
      leftPending firstByte earlier.flatten := by
  rw [← pixelize_fst]
  induction earlier generalizing firstByte with
  | nil => rfl
  | cons src earlier ih => rw [List.foldl_cons, ih, List.flatten_cons, pixelize_append]

/-! ### Two halves before one text -/

theorem findSymbol_length (key : SymbolKey) :
    findSymbol fillData key = [] ∨ (findSymbol fillData key).length = matrixSize := by
  have hall : ∀ entry ∈ fillData, entry.2.length = matrixSize := by decide +kernel
  unfold findSymbol
  cases hlookup : fillData.lookup key with
  | none => exact .inl rfl
  | some symbol =>
    obtain ⟨before, behind, hsplit, -⟩ := List.lookup_eq_some_iff.mp hlookup
    exact .inr (hall (key, symbol) (by rw [hsplit]; simp))

/-- Two halves always come to one symbol. -/
theorem pairSymbol_length (firstByte s : Byte) :
    (pairSymbol firstByte s).length = matrixSize := by
  have hmissing : (findSymbol fillData (toUint16 0x2A)).length = matrixSize := by
    rw [findSymbol_ascii rfl]
    decide
  unfold pairSymbol
  split_ifs with hnone
  · exact hmissing
  · exact (findSymbol_length _).resolve_left hnone

/-- A symbol that is owed is passed on over an equal one, and over nothing else. -/
theorem owed_append_iff {symbol cell : Matrix} (hsymbol : symbol.length = matrixSize)
    (hcell : cell = [] ∨ cell.length = matrixSize) (ahead behind : Matrix) :
    symbol ++ (cell ++ ahead) = cell ++ behind ↔
      (cell = [] ∨ cell = symbol) ∧ symbol ++ ahead = behind := by
  rcases hcell with rfl | hcell
  · simp
  · have hne : cell ≠ [] := by
      rintro rfl
      cases hcell
    constructor
    · intro heq
      obtain ⟨rfl, hrest⟩ := List.append_inj heq (hsymbol.trans hcell.symm)
      exact ⟨.inr rfl, hrest⟩
    · rintro ⟨hsame, rfl⟩
      rw [hsame.resolve_left hne]

/-- With a half before the text and without, at both stages of a pair. -/
theorem linesUp_iff (src : Text) :
    (∀ p, p ≠ 0 → ((pixelize p src).2 = (pixelize 0 src).2 ↔ LinesUp p none src)) ∧
      ∀ p symbol, p ≠ 0 → symbol.length = matrixSize →
        (symbol ++ (pixelize 0 src).2 = (pixelize p src).2 ↔ LinesUp p (some symbol) src) := by
  induction src with
  | nil =>
    refine ⟨fun p _ => iff_of_true rfl rfl, fun p symbol _ hsymbol => iff_of_false ?_ nofun⟩
    intro hnil
    rw [show (pixelize p []).2 = [] from rfl] at hnil
    rw [(List.append_eq_nil_iff.mp hnil).1] at hsymbol
    cases hsymbol
  | cons s src ih =>
    obtain ⟨ihnone, ihsome⟩ := ih
    cases hs : isBasic s with
    | true =>
      constructor
      · intro p hp
        rw [LinesUp, if_pos hs, pixelize_basic hs, pixelize_basic hs, ← ihnone p hp]
        exact List.append_right_inj _
      · intro p symbol hp hsymbol
        rw [LinesUp, if_pos hs, pixelize_basic hs, pixelize_basic hs, ← ihsome p symbol hp hsymbol]
        exact owed_append_iff hsymbol (findSymbol_length _) _ _
    | false =>
      have hne := ne_zero_of_not_basic hs
      constructor
      · intro p hp
        rw [LinesUp, if_neg (by simp [hs]), pixelize_first hs, pixelize_second hs hp,
          ← ihsome s _ hne (pairSymbol_length p s)]
      · intro p symbol hp hsymbol
        rw [LinesUp, if_neg (by simp [hs]), pixelize_first hs, pixelize_second hs hp,
          ← ihnone s hne]
        constructor
        · intro heq
          obtain ⟨hsame, hrest⟩ :=
            List.append_inj heq (hsymbol.trans (pairSymbol_length p s).symm)
          exact ⟨hsame.symm, hrest⟩
        · rintro ⟨hsame, hrest⟩
          rw [hsame, hrest]

/-- Two halves differ in the symbol they make with the next one, and in nothing else. -/
theorem pixelize_halves_iff {p q : Byte} (hp : p ≠ 0) (hq : q ≠ 0) (src : Text) :
    (pixelize p src).2 = (pixelize q src).2 ↔
      ∀ s ∈ src.find? fun s => !isBasic s, pairSymbol p s = pairSymbol q s := by
  induction src with
  | nil => exact iff_of_true rfl nofun
  | cons s src ih =>
    cases hs : isBasic s with
    | true =>
      rw [pixelize_basic hs, pixelize_basic hs, List.find?_cons_of_neg (by simp [hs]), ← ih]
      exact List.append_right_inj _
    | false =>
      rw [pixelize_second hs hp, pixelize_second hs hq, List.find?_cons_of_pos (by simp [hs])]
      simp only [Option.mem_some_iff, forall_eq']
      exact List.append_left_inj _

theorem alike_iff (p q : Byte) (src : Text) :
    (pixelize p src).2 = (pixelize q src).2 ↔ Alike p q src := by
  unfold Alike
  by_cases hp : p = 0
  · rw [if_pos hp, hp]
    by_cases hq : q = 0
    · exact iff_of_true (by rw [hq]) (.inl hq)
    · rw [or_iff_right hq, ← (linesUp_iff src).1 q hq]
      exact eq_comm
  · rw [if_neg hp]
    by_cases hq : q = 0
    · rw [if_pos hq, hq]
      exact (linesUp_iff src).1 p hp
    · rw [if_neg hq]
      exact pixelize_halves_iff hp hq src

/-- A text is rendered as by another font, fresh from its constructor, exactly
when the half left by the earlier texts and the other's first byte are alike to it. -/
theorem rendered_alone_iff (firstByte fresh : Byte) (earlier : List Text) (src : Text) :
    (pixelize (earlier.foldl (fun p src => (pixelize p src).1) firstByte) src).2 =
        (pixelize fresh src).2 ↔
      Alike (leftPending firstByte earlier.flatten) fresh src := by
  rw [foldl_pixelize]
  exact alike_iff _ _ src

/-- Behind a three-byte character U+0410 is not found, though it is alone. -/
theorem euro_shifts :
    (pixelize ([[0xE2, 0x82, 0xAC]].foldl (fun p src => (pixelize p src).1) 0) [0xD0, 0x90]).2 ≠
      (pixelize 0 [0xD0, 0x90]).2 := by
  decide +kernel

end LedServer.Pi
