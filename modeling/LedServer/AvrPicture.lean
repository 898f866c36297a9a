import LedServer.AvrRingContents
import LedServer.AvrScreen
import LedServer.GlyphRow

set_option autoImplicit false

/-!
# Pictures as rows of symbols

What each function of `render.c` appends to a picture that has the room for it,
and with it the pictures of the menu and of the clock.
-/
namespace LedServer.Avr
open AvrRing GlyphRow

/-- A picture is filled from its first cell on. -/
structure Drawn (buf : Buf) (row : List Byte) : Prop where
  valid : buf.Valid
  start : buf.start = 0
  contents : buf.contents = row

theorem Drawn.count {buf : Buf} {row : List Byte} (h : Drawn buf row) :
    buf.count = row.length := by
  rw [← contents_length, h.contents]

theorem drawn_init : Drawn bufInit [] where
  valid := ringInit_valid (by decide)
  start := rfl
  contents := ringInit_contents 64

theorem Drawn.byte {buf : Buf} {row : List Byte} (h : Drawn buf row) (room : row.length < 64)
    (b : Byte) : ∃ buf', bufByteFill buf b = (buf', true) ∧ Drawn buf' (row ++ [b]) := by
  have hroom : buf.count < (64 : Byte).toNat := by rw [h.count]; exact room
  have hsafe : ¬ (0 < buf.start.toNat ∧ buf.count + 1 = (64 : Byte).toNat) := by
    rw [h.start]
    exact fun hboth => absurd hboth.1 (by decide)
  refine ⟨(ringByteFill buf b).1, ?_, byteFill_valid h.valid b, ?_, ?_⟩
  · unfold bufByteFill
    rw [byteFill_eq h.valid hroom b]
  · rw [byteFill_start, h.start]
  · rw [byteFill_contents h.valid hroom hsafe b, h.contents]

theorem Drawn.full {buf : Buf} {row : List Byte} (h : Drawn buf row) (full : row.length = 64)
    (b : Byte) : bufByteFill buf b = (buf, false) := by
  have hfull : ¬ buf.count < (64 : Byte).toNat := by
    rw [h.count, full]
    decide
  exact byteFill_full h.valid hfull b

/-! ### `render.c` -/

/-- A function that appends these columns, given the room, and returns 1. -/
def Draws (f : Buf → Buf × Bool) (columns : List Byte) : Prop :=
  ∀ (buf : Buf) (row : List Byte), Drawn buf row → row.length + columns.length ≤ 64 →
    ∃ buf', f buf = (buf', true) ∧ Drawn buf' (row ++ columns)

/-- The cell of a symbol: its columns and the blank one `render_symbol` appends. -/
def cells (word : List Byte) : List Byte := write (fun s => (fillMatrix s).getD []) 0 word

theorem draws_matrix (matrix : List Byte) : Draws (matrixFill · matrix) matrix := by
  intro buf row h room
  induction matrix generalizing buf row with
  | nil => exact ⟨buf, rfl, by rwa [List.append_nil]⟩
  | cons b matrix ih =>
    rw [List.length_cons] at room
    obtain ⟨buf₁, hfill, h₁⟩ := h.byte (by omega) b
    obtain ⟨buf₂, hrest, h₂⟩ := ih buf₁ _ h₁ (by
      rw [List.length_append, List.length_singleton]
      omega)
    refine ⟨buf₂, ?_, by rwa [List.append_assoc] at h₂⟩
    show matrixFill buf (b :: matrix) = (buf₂, true)
    rw [matrixFill, hfill]
    exact hrest

theorem draws_symbol {symbol : Byte} (hs : symbol < fontMaxSymbol) :
    Draws (renderSymbol · symbol) (cells [symbol]) := by
  intro buf row h room
  have hlt : symbol.toNat < symbols.length := hs
  have hmatrix : fillMatrix symbol = some symbols[symbol.toNat] := List.getElem?_eq_getElem hlt
  have hcells : cells [symbol] = symbols[symbol.toNat] ++ [0] := by
    rw [cells, write_cons, hmatrix, write_nil]
    rfl
  rw [hcells, List.length_append, List.length_singleton] at room
  obtain ⟨buf₁, hfill, h₁⟩ := draws_matrix symbols[symbol.toNat] buf row h (by omega)
  obtain ⟨buf₂, hgap, h₂⟩ := h₁.byte (by
    rw [List.length_append]
    omega) 0
  refine ⟨buf₂, ?_, by rwa [hcells, ← List.append_assoc]⟩
  show renderSymbol buf symbol = (buf₂, true)
  have hadd : fontAddSymbol symbol buf = (buf₁, true) := by
    rw [fontAddSymbol, hmatrix]
    exact hfill
  rw [renderSymbol, hadd]
  exact hgap

/-- One function after the other. -/
theorem Draws.next {f g : Buf → Buf × Bool} {cs ds : List Byte} (hf : Draws f cs)
    (hg : Draws g ds) {buf : Buf} {row : List Byte} (h : Drawn buf row)
    (room : row.length + (cs ++ ds).length ≤ 64) :
    ∃ buf₁ buf₂, f buf = (buf₁, true) ∧ g buf₁ = (buf₂, true) ∧ Drawn buf₂ (row ++ (cs ++ ds)) := by
  rw [List.length_append] at room
  obtain ⟨buf₁, hfirst, h₁⟩ := hf buf row h (by omega)
  obtain ⟨buf₂, hsecond, h₂⟩ := hg buf₁ _ h₁ (by
    rw [List.length_append]
    omega)
  exact ⟨buf₁, buf₂, hfirst, hsecond, by rwa [← List.append_assoc]⟩

theorem cells_append (word word' : List Byte) : cells (word ++ word') = cells word ++ cells word' :=
  write_append word word'

theorem draws_word {word : List Byte} (hword : ∀ s ∈ word, s < fontMaxSymbol) :
    Draws (renderWord · word) (cells word) := by
  induction word with
  | nil =>
    intro buf row h _
    exact ⟨buf, rfl, by simpa [cells] using h⟩
  | cons symbol word ih =>
    intro buf row h room
    have hcells : cells (symbol :: word) = cells [symbol] ++ cells word :=
      cells_append [symbol] word
    rw [hcells] at room ⊢
    obtain ⟨buf₁, buf₂, hfirst, hrest, h₂⟩ := (draws_symbol (hword symbol List.mem_cons_self)).next
      (ih fun s hs => hword s (List.mem_cons_of_mem _ hs)) h room
    refine ⟨buf₂, ?_, h₂⟩
    show renderWord buf (symbol :: word) = (buf₂, true)
    rw [renderWord, hfirst]
    exact hrest

/-- The digits that are rendered. -/
def numberWord (num leadingZero : Byte) : List Byte :=
  (if num / 100 ≠ 0 || isZeroNeeded leadingZero renderLeadingHundred then [num / 100] else []) ++
    (if num / 100 ≠ 0 || num % 100 / 10 ≠ 0 || isZeroNeeded leadingZero renderLeadingTen then
      [num % 100 / 10] else []) ++
    [num % 100 % 10]

theorem digits_lt (num : Byte) : num / 100 < 10 ∧ num % 100 / 10 < 10 ∧ num % 100 % 10 < 10 := by
  have hnum : num.toNat < 256 := num.isLt
  refine ⟨?_, ?_, ?_⟩
  · show num.toNat / 100 < 10
    omega
  · show num.toNat % 100 / 10 < 10
    omega
  · show num.toNat % 100 % 10 < 10
    omega

theorem digit_symbol {digit : Byte} (h : digit < 10) : digit < fontMaxSymbol := by
  have hten : digit.toNat < 10 := h
  show digit.toNat < 57
  omega

theorem draws_digit {digit : Byte} (hdigit : digit < 10) (needed : Bool) :
    Draws (renderDigit · needed digit) (cells (if needed then [digit] else [])) := by
  intro buf row h room
  cases needed with
  | false => exact ⟨buf, rfl, by simpa [cells] using h⟩
  | true => exact draws_symbol (digit_symbol hdigit) buf row h room

theorem draws_number (num leadingZero : Byte) :
    Draws (renderNumber · num leadingZero) (cells (numberWord num leadingZero)) := by
  obtain ⟨hhundred, hten, hunit⟩ := digits_lt num
  have htens : Draws (fun buf => renderDigit buf _ (num % 100 / 10)) _ := draws_digit hten
    (num / 100 ≠ 0 || num % 100 / 10 ≠ 0 || isZeroNeeded leadingZero renderLeadingTen)
  have hhundreds : Draws (fun buf => renderDigit buf _ (num / 100)) _ := draws_digit hhundred
    (num / 100 ≠ 0 || isZeroNeeded leadingZero renderLeadingHundred)
  intro buf row h room
  rw [numberWord, cells_append, cells_append] at room ⊢
  have hroom := room
  rw [List.length_append] at hroom
  obtain ⟨buf₁, buf₂, hfirst, hsecond, h₂⟩ := hhundreds.next htens h (by omega)
  obtain ⟨buf₃, hlast, h₃⟩ := draws_symbol (digit_symbol hunit) buf₂ _ h₂ (by
    rw [List.length_append]
    omega)
  refine ⟨buf₃, ?_, by rwa [List.append_assoc] at h₃⟩
  show renderNumber buf num leadingZero = (buf₃, true)
  unfold renderNumber
  dsimp only at hfirst hsecond ⊢
  rw [hfirst]
  dsimp only
  rw [hsecond]
  exact hlast

/-- The loop comes to an end with the picture full. -/
theorem renderTail_ends {turns : ℕ} {buf : Buf} {row : List Byte} (h : Drawn buf row)
    (hturns : 64 - row.length < turns) :
    ∃ buf', renderTailLoop turns buf = some buf' ∧
      Drawn buf' (row ++ List.replicate (64 - row.length) 0) := by
  induction turns generalizing buf row with
  | zero => cases hturns
  | succ turns ih =>
    rw [renderTailLoop]
    by_cases hroom : row.length < 64
    · obtain ⟨buf₁, hfill, h₁⟩ := h.byte hroom 0
      have hlength : (row ++ [(0 : Byte)]).length = row.length + 1 := by simp
      obtain ⟨buf', hloop, h'⟩ := ih h₁ (by omega)
      refine ⟨buf', by rw [hfill]; exact hloop, ?_⟩
      have htail : 64 - row.length = 64 - (row.length + 1) + 1 := by omega
      rw [htail, List.replicate_succ, List.append_cons]
      rwa [hlength] at h'
    · have hle : row.length ≤ 64 := by
        rw [← h.count]
        exact count_le h.valid
      have hfull : row.length = 64 := by omega
      refine ⟨buf, by rw [h.full hfull], ?_⟩
      rwa [hfull, Nat.sub_self, List.replicate_zero, List.append_nil]

theorem Drawn.tail {buf : Buf} {row : List Byte} (h : Drawn buf row) :
    Drawn (renderTail buf) (row ++ List.replicate (64 - row.length) 0) := by
  have hturns : 64 - row.length < 65 := by omega
  obtain ⟨buf', hloop, h'⟩ := renderTail_ends h hturns
  rwa [renderTail, hloop]

/-- One more function that returns 1, its result unused. -/
theorem Drawn.after {f : Buf → Buf × Bool} {columns : List Byte} (hf : Draws f columns) {buf : Buf}
    {row : List Byte} (h : Drawn buf row) (room : row.length + columns.length ≤ 64) :
    Drawn (f buf).1 (row ++ columns) := by
  obtain ⟨buf', hdraws, h'⟩ := hf buf row h room
  rwa [hdraws]

theorem numberWord_length (num leadingZero : Byte) : (numberWord num leadingZero).length ≤ 3 := by
  unfold numberWord
  split_ifs <;> simp

theorem mem_ite_singleton {p : Bool} {s digit : Byte} (h : s ∈ if p then [digit] else []) :
    s = digit := by
  cases p with
  | false => cases h
  | true => exact List.mem_singleton.mp h

theorem numberWord_digits (num leadingZero : Byte) :
    ∀ s ∈ numberWord num leadingZero, s < 10 := by
  obtain ⟨hhundred, hten, hunit⟩ := digits_lt num
  intro s hs
  rw [numberWord, List.mem_append, List.mem_append, List.mem_singleton] at hs
  rcases hs with (hs | hs) | rfl
  · rwa [mem_ite_singleton hs]
  · rwa [mem_ite_singleton hs]
  · exact hunit

/-- A symbol that leaves a mark. -/
def Visible (symbol : Byte) : Prop := symbol < fontMaxSymbol ∧ symbol ≠ fontSpace

instance (symbol : Byte) : Decidable (Visible symbol) := inferInstanceAs (Decidable (_ ∧ _))

theorem digit_visible {digit : Byte} (h : digit < 10) : Visible digit := by
  refine ⟨digit_symbol h, ?_⟩
  rintro rfl
  exact absurd h (by decide)

theorem number_visible (num leadingZero : Byte) : ∀ s ∈ numberWord num leadingZero, Visible s :=
  fun s hs => digit_visible (numberWord_digits num leadingZero s hs)

theorem cells_length {word : List Byte} (h : ∀ s ∈ word, s < fontMaxSymbol) :
    (cells word).length = 6 * word.length := by
  refine write_length fun s hs => ?_
  have hall : ∀ matrix ∈ symbols, matrix.length = symbolSize := by decide
  have hlt : s.toNat < symbols.length := h s hs
  rw [fillMatrix, List.getElem?_eq_getElem hlt]
  exact hall _ (List.getElem_mem hlt)

/-! ### `menu.c` -/

/-- A label is one of the table or empty. -/
theorem labelWord_mem (param : Byte) :
    labelWord param = [] ∨ (param, labelWord param) ∈ labels := by
  unfold labelWord
  cases hlookup : labels.lookup param with
  | none => exact .inl rfl
  | some word =>
    obtain ⟨before, behind, hsplit, -⟩ := List.lookup_eq_some_iff.mp hlookup
    exact .inr (by rw [hsplit]; simp)

theorem labelWord_symbols (param : Byte) :
    ∀ s ∈ labelWord param, Visible s ∧ s ≠ fontColon := by
  have hall : labels.all fun label => label.2.all fun s => decide (Visible s ∧ s ≠ fontColon) := by
    decide
  rcases labelWord_mem param with hnone | hmem
  · rw [hnone]
    exact fun s hs => by cases hs
  · have hword := List.all_eq_true.mp hall _ hmem
    exact fun s hs => of_decide_eq_true (List.all_eq_true.mp hword s hs)

/-- The labels with numbers behind them are short. -/
theorem labelWord_length (param : Byte) :
    (labelWord param).length ≤ if isValue param then 2 else 9 := by
  have hall : ∀ label ∈ labels, label.2.length ≤ if isValue label.1 then 2 else 9 := by decide
  rcases labelWord_mem param with hnone | hmem
  · rw [hnone]
    exact Nat.zero_le _
  · exact hall _ hmem

def sourceWord (m : Menu) (param : Byte) : List Byte :=
  if isValue param then
    fontColon ::
      if m.paramFlag &&& valueFlag param = 0 then [fontStar]
      else numberWord (m.paramOld (valueIdOf param)) renderLeadingDisable
  else []

def destinationWord (m : Menu) (param : Byte) : List Byte :=
  if isValue param ∧ m.paramFlag &&& valueFlag param ≠ 0 then
    fontColon :: numberWord (m.paramNew (valueIdOf param)) renderLeadingDisable
  else []

/-- What an open menu writes. -/
def menuWord (m : Menu) : List Byte :=
  labelWord m.paramId ++
    if m.state = .param ∨ m.state = .value then
      sourceWord m m.paramId ++ destinationWord m m.paramId
    else []

theorem sourceWord_visible (m : Menu) (param : Byte) : ∀ s ∈ sourceWord m param, Visible s := by
  intro s hs
  unfold sourceWord at hs
  split_ifs at hs with hvalue hflag
  · rcases List.mem_cons.mp hs with rfl | hs
    · decide
    · rw [List.mem_singleton.mp hs]
      decide
  · rcases List.mem_cons.mp hs with rfl | hs
    · decide
    · exact number_visible _ _ s hs
  · cases hs

theorem destinationWord_visible (m : Menu) (param : Byte) :
    ∀ s ∈ destinationWord m param, Visible s := by
  intro s hs
  unfold destinationWord at hs
  split_ifs at hs with hvalue
  · rcases List.mem_cons.mp hs with rfl | hs
    · decide
    · exact number_visible _ _ s hs
  · cases hs

theorem menuWord_visible (m : Menu) : ∀ s ∈ menuWord m, Visible s := by
  intro s hs
  rcases List.mem_append.mp hs with hs | hs
  · exact (labelWord_symbols m.paramId s hs).1
  · split_ifs at hs
    · rcases List.mem_append.mp hs with hs | hs
      · exact sourceWord_visible m m.paramId s hs
      · exact destinationWord_visible m m.paramId s hs
    · cases hs

/-- Ten symbols at most: a name of two and two numbers behind colons. -/
theorem menuWord_length (m : Menu) : (menuWord m).length ≤ 10 := by
  have hlabel := labelWord_length m.paramId
  have hsource : (sourceWord m m.paramId).length ≤ if isValue m.paramId then 4 else 0 := by
    have hnum := numberWord_length (m.paramOld (valueIdOf m.paramId)) renderLeadingDisable
    unfold sourceWord
    split_ifs <;> simp only [List.length_cons, List.length_nil] <;> omega
  have hdestination : (destinationWord m m.paramId).length ≤ if isValue m.paramId then 4 else 0 := by
    have hnum := numberWord_length (m.paramNew (valueIdOf m.paramId)) renderLeadingDisable
    unfold destinationWord
    split_ifs with hboth hvalue hvalue
    · rw [List.length_cons]
      omega
    · exact absurd hboth.1 hvalue
    · exact Nat.zero_le _
    · exact Nat.zero_le _
  unfold menuWord
  rw [List.length_append]
  cases hvalue : isValue m.paramId <;> simp only [hvalue, Bool.false_eq_true, ↓reduceIte] at * <;>
    split_ifs <;> simp only [List.length_append, List.length_nil] <;> omega

theorem visible_symbols {word : List Byte} (h : ∀ s ∈ word, Visible s) :
    ∀ s ∈ word, s < fontMaxSymbol := fun s hs => (h s hs).1

theorem Drawn.source {buf : Buf} {row : List Byte} (h : Drawn buf row) (m : Menu) (param : Byte)
    (room : row.length + (cells (sourceWord m param)).length ≤ 64) :
    Drawn (renderSource m buf param) (row ++ cells (sourceWord m param)) := by
  unfold sourceWord at room ⊢
  unfold renderSource
  cases hvalue : isValue param with
  | false => simpa [cells] using h
  | true =>
    simp only [hvalue, Bool.not_true, Bool.false_eq_true, ↓reduceIte] at room ⊢
    have hcolon : Draws (renderSymbol · fontColon) (cells [fontColon]) := draws_symbol (by decide)
    split_ifs with hflag
    · rw [if_pos hflag] at room
      have hstar : Draws (renderSymbol · fontStar) (cells [fontStar]) := draws_symbol (by decide)
      obtain ⟨buf₁, buf₂, h₁, h₂, hdrawn⟩ := hcolon.next hstar h room
      rw [show renderSymbol buf fontColon = (buf₁, true) from h₁,
        show renderSymbol buf₁ fontStar = (buf₂, true) from h₂]
      exact hdrawn
    · rw [if_neg hflag] at room
      obtain ⟨buf₁, buf₂, h₁, h₂, hdrawn⟩ := hcolon.next (draws_number
        (m.paramOld (valueIdOf param)) renderLeadingDisable) h room
      rw [show renderSymbol buf fontColon = (buf₁, true) from h₁,
        show renderNumber buf₁ _ renderLeadingDisable = (buf₂, true) from h₂]
      exact hdrawn

theorem Drawn.destination {buf : Buf} {row : List Byte} (h : Drawn buf row) (m : Menu)
    (param : Byte) (room : row.length + (cells (destinationWord m param)).length ≤ 64) :
    Drawn (renderDestination m buf param) (row ++ cells (destinationWord m param)) := by
  unfold destinationWord at room ⊢
  unfold renderDestination
  cases hvalue : isValue param with
  | false => simpa [cells] using h
  | true =>
    simp only [hvalue, Bool.not_true, Bool.false_eq_true, ↓reduceIte, true_and, ne_eq,
      ite_not] at room ⊢
    split_ifs with hflag
    · simpa [cells] using h
    · rw [if_neg hflag] at room
      have hcolon : Draws (renderSymbol · fontColon) (cells [fontColon]) := draws_symbol (by decide)
      obtain ⟨buf₁, buf₂, h₁, h₂, hdrawn⟩ := hcolon.next (draws_number
        (m.paramNew (valueIdOf param)) renderLeadingDisable) h room
      rw [show renderSymbol buf fontColon = (buf₁, true) from h₁,
        show renderNumber buf₁ _ renderLeadingDisable = (buf₂, true) from h₂]
      exact hdrawn

theorem Drawn.label {buf : Buf} {row : List Byte} (h : Drawn buf row) (param : Byte)
    (room : row.length + (cells (labelWord param)).length ≤ 64) :
    Drawn (renderLabel buf param) (row ++ cells (labelWord param)) :=
  h.after (draws_word (visible_symbols fun s hs => (labelWord_symbols param s hs).1)) room

/-- The picture of an open menu: nothing of it is cut off. -/
theorem menuRender_drawn {m : Menu} (hopen : m.state ≠ .idle) :
    ∃ buf, menuRender m = some buf ∧
      Drawn buf (0 :: cells (menuWord m) ++ List.replicate (63 - 6 * (menuWord m).length) 0) := by
  have hlength := menuWord_length m
  have hcells := cells_length (visible_symbols (menuWord_visible m))
  have htail : 64 - ((0 : Byte) :: cells (menuWord m)).length = 63 - 6 * (menuWord m).length := by
    rw [List.length_cons, hcells]
    omega
  obtain ⟨buf₁, hfirst, h₁⟩ := drawn_init.byte (by decide) 0
  have hblank : Drawn (bufByteFill bufInit 0).1 [0] := by rwa [hfirst]
  have hword : cells (menuWord m) = cells (labelWord m.paramId) ++
      cells (if m.state = .param ∨ m.state = .value then
        sourceWord m m.paramId ++ destinationWord m m.paramId else []) := cells_append _ _
  have hroom := congrArg List.length hword
  rw [List.length_append] at hroom
  have hlabel := hblank.label m.paramId (by
    rw [List.length_singleton]
    omega)
  refine ⟨_, if_neg hopen, ?_⟩
  rw [← htail]
  refine Drawn.tail ?_
  rw [hword]
  by_cases hnumbers : m.state = .param ∨ m.state = .value
  · rw [if_pos hnumbers] at hroom ⊢
    rw [if_pos hnumbers, cells_append]
    rw [cells_append, List.length_append] at hroom
    have hsource := hlabel.source m m.paramId (by
      rw [List.length_append, List.length_singleton]
      omega)
    have hdestination := hsource.destination m m.paramId (by
      rw [List.length_append, List.length_append, List.length_singleton]
      omega)
    simpa using hdestination
  · rw [if_neg hnumbers, if_neg hnumbers]
    simpa [cells] using hlabel

/-! ### `watch.c` -/

/-- What the clock writes behind its indent. -/
def watchWord (w : Watch) : List Byte :=
  numberWord (rtcFrom w.hour .hour) renderLeadingDisable ++
    fontColon :: numberWord (rtcFrom w.minute .minute) renderLeadingTen ++
    fontColon :: numberWord (rtcFrom w.second .second) renderLeadingTen

theorem drawn_indent (n : ℕ) (hn : n ≤ 64) :
    Drawn ((List.range n).foldl (fun image _ => (bufByteFill image 0).1) bufInit)
      (List.replicate n 0) := by
  induction n with
  | zero => exact drawn_init
  | succ n ih =>
    have hbefore := ih (by omega)
    obtain ⟨buf', hfill, h'⟩ := hbefore.byte (by
      rw [List.length_replicate]
      omega) 0
    rw [List.range_succ, List.foldl_append, List.foldl_cons, List.foldl_nil, hfill,
      List.replicate_succ']
    exact h'

/-- No number of the clock has three digits. -/
theorem rtcFrom_lt (src : Byte) (unit : RtcUnit) : rtcFrom src unit < 100 := by
  have htens : ∀ mask : Byte, mask ≤ 0x7 → ((src >>> 4) &&& mask).toNat ≤ 7 := fun mask hmask =>
    (BitVec.toNat_and .. ▸ Nat.and_le_right).trans hmask
  have hunits : (src &&& 0xf).toNat ≤ 15 := BitVec.toNat_and .. ▸ Nat.and_le_right
  have hmask : (if unit = .hour then 0x3 else 0x7 : Byte) ≤ 0x7 := by split <;> decide
  have hten : ((src >>> 4) &&& if unit = .hour then 0x3 else 0x7).toNat * 10 < 2 ^ 8 := by
    have hseven := htens _ hmask
    omega
  have hseven := htens _ hmask
  show ((src >>> 4 &&& if unit = .hour then 0x3 else 0x7) * 10 + (src &&& 0xf)).toNat < 100
  have h10 : (10 : Byte).toNat = 10 := rfl
  rw [BitVec.toNat_add, BitVec.toNat_mul, h10, Nat.mod_eq_of_lt hten, Nat.mod_eq_of_lt] <;> omega

theorem clock_length {num : Byte} (h : num < 100) {leadingZero : Byte}
    (hleading : isZeroNeeded leadingZero renderLeadingHundred = false) :
    (numberWord num leadingZero).length ≤ 2 := by
  have hhundred : num / 100 = 0 := by
    have hnum : num.toNat < 100 := h
    apply BitVec.eq_of_toNat_eq
    show num.toNat / 100 = 0
    omega
  unfold numberWord
  rw [hhundred, hleading]
  simp only [ne_eq, not_true_eq_false, decide_false, Bool.or_self, Bool.false_eq_true, ↓reduceIte,
    List.nil_append, List.length_append, List.length_singleton]
  split_ifs <;> simp

theorem watchWord_length (w : Watch) : (watchWord w).length ≤ 8 := by
  have hdisable : isZeroNeeded renderLeadingDisable renderLeadingHundred = false := rfl
  have hten : isZeroNeeded renderLeadingTen renderLeadingHundred = false := rfl
  have hhour := clock_length (rtcFrom_lt w.hour .hour) hdisable
  have hminute := clock_length (rtcFrom_lt w.minute .minute) hten
  have hsecond := clock_length (rtcFrom_lt w.second .second) hten
  unfold watchWord
  simp only [List.length_append, List.length_cons]
  omega

theorem watchWord_visible (w : Watch) : ∀ s ∈ watchWord w, Visible s := by
  have hcolon : Visible fontColon := by decide
  intro s hs
  simp only [watchWord, List.mem_append, List.mem_cons] at hs
  rcases hs with (hs | rfl | hs) | rfl | hs
  · exact number_visible _ _ s hs
  · exact hcolon
  · exact number_visible _ _ s hs
  · exact hcolon
  · exact number_visible _ _ s hs

theorem watchRender_drawn (w : Watch) :
    Drawn (watchRender w) (List.replicate 10 0 ++ cells (watchWord w) ++
      List.replicate (54 - 6 * (watchWord w).length) 0) := by
  have hlength := watchWord_length w
  have hcells := cells_length (visible_symbols (watchWord_visible w))
  have htail : 64 - (List.replicate 10 (0 : Byte) ++ cells (watchWord w)).length =
      54 - 6 * (watchWord w).length := by
    rw [List.length_append, List.length_replicate, hcells]
    omega
  have hword : cells (watchWord w) =
      cells (numberWord (rtcFrom w.hour .hour) renderLeadingDisable) ++ (cells [fontColon] ++
        (cells (numberWord (rtcFrom w.minute .minute) renderLeadingTen) ++ (cells [fontColon] ++
          cells (numberWord (rtcFrom w.second .second) renderLeadingTen)))) := by
    simp only [← cells_append, watchWord, List.append_assoc, List.cons_append, List.nil_append]
  have hroom := congrArg List.length hword
  simp only [List.length_append] at hroom
  have hcolon : Draws (renderSymbol · fontColon) (cells [fontColon]) := draws_symbol (by decide)
  have hindent : Drawn _ (List.replicate 10 0) := drawn_indent imageIndent (by decide)
  have hhour := hindent.after
    (draws_number (rtcFrom w.hour .hour) renderLeadingDisable) (by
      rw [List.length_replicate]
      omega)
  have hfirst := hhour.after hcolon (by
    simp only [List.length_append, List.length_replicate]
    omega)
  have hminute := hfirst.after (draws_number (rtcFrom w.minute .minute) renderLeadingTen) (by
    simp only [List.length_append, List.length_replicate]
    omega)
  have hsecond := hminute.after hcolon (by
    simp only [List.length_append, List.length_replicate]
    omega)
  have hall := hsecond.after (draws_number (rtcFrom w.second .second) renderLeadingTen) (by
    simp only [List.length_append, List.length_replicate]
    omega)
  rw [← htail, hword]
  refine Drawn.tail ?_
  simpa only [List.append_assoc] using hall

end LedServer.Avr
