import LedServer.AvrPicture
import LedServer.DisplayBits
import LedServer.Separated

set_option autoImplicit false

/-!
# Reading the display

A reader takes the bits the two controllers have latched for columns, the
columns for symbols and the symbols for a name and numbers. What it reads is
what the menu is at, and what the clock holds.
-/
namespace LedServer.Avr
open AvrRing GlyphRow PortProgram

/-! ### The columns -/

def columnOf (bits : List Bool) : Byte :=
  BitVec.ofNat 8 (bits.foldr (fun bit n => 2 * n + bit.toNat) 0)

def readColumns : ℕ → List Bool → List Byte
  | 0, _ => []
  | n + 1, bits => columnOf (bits.take 8) :: readColumns n (bits.drop 8)

/-- What the left and the right display show, their headers apart. -/
def readDisplays (leftBits rightBits : List Bool) : List Byte :=
  readColumns 32 (leftBits.drop 10) ++ readColumns 32 (rightBits.drop 10)

theorem columnBits_length (column : Byte) : (columnBits column).length = 8 := by
  simp [columnBits]

theorem columnOf_columnBits : ∀ column : Byte, columnOf (columnBits column) = column := by
  decide +kernel

theorem readColumns_flatMap (columns : List Byte) :
    readColumns columns.length (columns.flatMap columnBits) = columns := by
  induction columns with
  | nil => rfl
  | cons column columns ih =>
    rw [List.length_cons, readColumns, List.flatMap_cons,
      List.take_left' (columnBits_length column), List.drop_left' (columnBits_length column),
      columnOf_columnBits, ih]

/-- The columns on the displays once `flush_stable_display` is through. -/
def onDisplays (shiftData : Buffer) (port : Byte) (buf : Buf) : List Byte :=
  readDisplays (left.latched port (flushStableDisplay shiftData buf).2)
    (right.latched port (flushStableDisplay shiftData buf).2)

/-- A picture of 64 columns is read off the displays as it is. -/
theorem onDisplays_drawn (shiftData : Buffer) {buf : Buf} {row : List Byte} (h : Drawn buf row)
    (full : row.length = 64) (port : Byte) : onDisplays shiftData port buf = row := by
  have hshown : buf.contents ++ List.replicate (64 - buf.count) 0 = row := by
    rw [h.contents, h.count, full, Nat.sub_self, List.replicate_zero, List.append_nil]
  obtain ⟨hleft, hright⟩ := flushStableDisplay_delivers shiftData h.valid port
  rw [hshown] at hleft hright
  have hheader : dataHeader.length = 10 := rfl
  have htake : (row.take 32).length = 32 := by
    rw [List.length_take]
    omega
  have hdrop : (row.drop 32).length = 32 := by
    rw [List.length_drop]
    omega
  have hfirst := readColumns_flatMap (row.take 32)
  have hsecond := readColumns_flatMap (row.drop 32)
  rw [htake] at hfirst
  rw [hdrop] at hsecond
  rw [onDisplays, readDisplays, hleft, hright, List.drop_left' hheader, List.drop_left' hheader, hfirst,
    hsecond, List.take_append_drop]

/-! ### The symbols -/

/-- The symbol with these columns, dark ones apart. -/
def symbolOf (columns : List Byte) : Option Byte :=
  if columns = List.replicate symbolSize 0 then none
  else (symbols.idxOf? columns).map (BitVec.ofNat 8)

/-- Of ten symbols at most. -/
def readWord (columns : List Byte) : List Byte := read symbolOf symbolSize 10 columns

theorem symbolOf_visible : ∀ s : Byte, Visible s →
    ((fillMatrix s).getD []).length = symbolSize ∧ symbolOf ((fillMatrix s).getD []) = some s := by
  decide +kernel

theorem readWord_cells {word : List Byte} (h : ∀ s ∈ word, Visible s) (hlength : word.length ≤ 10)
    (n : ℕ) (hn : word.length < 10 → 5 ≤ n) :
    readWord (cells word ++ List.replicate n 0) = word := by
  refine read_write (fun s hs => symbolOf_visible s (h s hs)) (fun hlt => ?_) hlength
  rw [List.take_replicate, show min symbolSize n = symbolSize from min_eq_left (hn hlt)]
  exact if_pos rfl

/-! ### Names and numbers -/

def digitsOf (field : List Byte) : ℕ := field.foldl (fun n s => 10 * n + s.toNat) 0

/-- A star stands for a number that is not known. -/
def readNumber (field : List Byte) : Option ℕ :=
  if field = [fontStar] then none else some (digitsOf field)

def readParam (label : List Byte) : Option Byte :=
  (labels.find? (·.2 = label)).map (·.1)

theorem digitsOf_number (num leadingZero : Byte) :
    digitsOf (numberWord num leadingZero) = num.toNat := by
  have hnum : num.toNat < 256 := num.isLt
  have hdigits : num.toNat =
      100 * (num / 100).toNat + 10 * (num % 100 / 10).toNat + (num % 100 % 10).toNat := by
    show num.toNat = 100 * (num.toNat / 100) + 10 * (num.toNat % 100 / 10) + num.toNat % 100 % 10
    omega
  unfold digitsOf numberWord
  rw [hdigits]
  split_ifs with hhundred hten hten <;>
    simp only [Bool.or_eq_true, decide_eq_true_eq, not_or, ne_eq, not_not] at hhundred hten <;>
    simp only [List.nil_append, List.cons_append, List.foldl_cons, List.foldl_nil, mul_zero,
      zero_add]
  · ring
  · rw [hten.1.1, hten.1.2]
    simp
  · rw [hhundred.1]
    simp
  · rw [hhundred.1, hten.1.2]
    simp

theorem readNumber_number (num leadingZero : Byte) :
    readNumber (numberWord num leadingZero) = some num.toNat := by
  have hstar : numberWord num leadingZero ≠ [fontStar] := by
    intro heq
    have hmem : fontStar ∈ numberWord num leadingZero := by simp [heq]
    exact absurd (numberWord_digits num leadingZero fontStar hmem) (by decide)
  rw [readNumber, if_neg hstar, digitsOf_number]

theorem readParam_label : ∀ param : Byte,
    readParam (labelWord param) = if param ≤ paramApply then some param else none := by
  decide +kernel

theorem number_colonless (num leadingZero : Byte) : fontColon ∉ numberWord num leadingZero :=
  fun hmem => absurd (numberWord_digits num leadingZero fontColon hmem) (by decide)

theorem label_colonless (param : Byte) : fontColon ∉ labelWord param :=
  fun hmem => (labelWord_symbols param fontColon hmem).2 rfl

/-! ### The menu -/

/-- What a reader takes from the menu: the parameter, its value and the one chosen. -/
structure Reading where
  param : Option Byte
  source : Option (Option ℕ)
  destination : Option ℕ
deriving DecidableEq

def readMenu (columns : List Byte) : Reading :=
  let fields := (readWord (columns.drop 1)).splitOn fontColon
  { param := readParam (fields.headD [])
    source := fields[1]?.map readNumber
    destination := fields[2]?.map digitsOf }

/-- The menu shows numbers. -/
def Numbered (m : Menu) : Prop :=
  (m.state = .param ∨ m.state = .value) ∧ isValue m.paramId = true

instance (m : Menu) : Decidable (Numbered m) := inferInstanceAs (Decidable (_ ∧ _))

/-- The range of the parameter has arrived. -/
def Known (m : Menu) : Prop := m.paramFlag &&& valueFlag m.paramId ≠ 0

instance (m : Menu) : Decidable (Known m) := inferInstanceAs (Decidable (_ ≠ _))

def shown (m : Menu) : Reading where
  param := if m.paramId ≤ paramApply then some m.paramId else none
  source :=
    if Numbered m then
      some (if Known m then some (m.paramOld (valueIdOf m.paramId)).toNat else none)
    else none
  destination :=
    if Numbered m ∧ Known m then some (m.paramNew (valueIdOf m.paramId)).toNat else none

/-- The fields of the picture. -/
theorem menuWord_fields (m : Menu) :
    (menuWord m).splitOn fontColon = labelWord m.paramId ::
      if Numbered m then
        if Known m then
          [numberWord (m.paramOld (valueIdOf m.paramId)) renderLeadingDisable,
            numberWord (m.paramNew (valueIdOf m.paramId)) renderLeadingDisable]
        else [[fontStar]]
      else [] := by
  have hlabel := label_colonless m.paramId
  have hnumber := fun id => number_colonless id renderLeadingDisable
  unfold menuWord
  by_cases hstate : m.state = .param ∨ m.state = .value
  · cases hvalue : isValue m.paramId with
    | false =>
      have hnumbered : ¬ Numbered m := by
        rintro ⟨-, htrue⟩
        rw [hvalue] at htrue
        cases htrue
      rw [if_neg hnumbered, if_pos hstate, sourceWord, destinationWord, hvalue]
      simpa using List.splitOn_eq_singleton hlabel
    | true =>
      have hnumbered : Numbered m := ⟨hstate, hvalue⟩
      rw [if_pos hnumbered, if_pos hstate, sourceWord, destinationWord, if_pos hvalue]
      by_cases hknown : Known m
      · rw [if_pos hknown, if_neg hknown, if_pos ⟨hvalue, hknown⟩, List.cons_append,
          List.splitOn_append_cons_self_of_not_mem hlabel,
          List.splitOn_append_cons_self_of_not_mem (hnumber _), List.splitOn_eq_singleton (hnumber _)]
      · have hflag : m.paramFlag &&& valueFlag m.paramId = 0 := not_not.mp hknown
        rw [if_neg hknown, if_pos hflag, if_neg fun h => h.2 hflag, List.append_nil,
          List.splitOn_append_cons_self_of_not_mem hlabel,
          List.splitOn_eq_singleton (by decide)]
  · have hnumbered : ¬ Numbered m := fun h => hstate h.1
    rw [if_neg hnumbered, if_neg hstate, List.append_nil, List.splitOn_eq_singleton hlabel]

theorem readMenu_word {m : Menu} {columns : List Byte}
    (h : readWord (columns.drop 1) = menuWord m) : readMenu columns = shown m := by
  have hparam := readParam_label m.paramId
  unfold readMenu shown
  rw [h, menuWord_fields]
  dsimp only
  rw [List.headD_cons, hparam]
  by_cases hnumbered : Numbered m
  · by_cases hknown : Known m
    · simp [hnumbered, hknown, readNumber_number, digitsOf_number]
    · simp [hnumbered, hknown, readNumber]
  · simp [hnumbered]

/-- The picture of an open menu, whatever was on the port, reads as the menu is. -/
theorem menu_reads {m : Menu} (hopen : m.state ≠ .idle) :
    ∃ buf, menuRender m = some buf ∧
      ∀ (shiftData : Buffer) (port : Byte), readMenu (onDisplays shiftData port buf) = shown m := by
  have hlength := menuWord_length m
  have hcells := cells_length (visible_symbols (menuWord_visible m))
  obtain ⟨buf, hrender, hdrawn⟩ := menuRender_drawn hopen
  have hfull : (0 :: cells (menuWord m) ++
      List.replicate (63 - 6 * (menuWord m).length) (0 : Byte)).length = 64 := by
    rw [List.length_append, List.length_cons, List.length_replicate, hcells]
    omega
  refine ⟨buf, hrender, fun shiftData port => ?_⟩
  rw [onDisplays_drawn shiftData hdrawn hfull port]
  refine readMenu_word ?_
  rw [List.cons_append, List.drop_one, List.tail_cons]
  exact readWord_cells (menuWord_visible m) hlength _ fun hlt => by omega

/-! ### The clock -/

/-- Hours, minutes and seconds, behind the indent. -/
def readClock (columns : List Byte) : Option (ℕ × ℕ × ℕ) :=
  match (readWord (columns.drop imageIndent)).splitOn fontColon with
  | [hour, minute, second] => some (digitsOf hour, digitsOf minute, digitsOf second)
  | _ => none

/-- What `rtc` makes of the three registers. -/
def Watch.time (w : Watch) : ℕ × ℕ × ℕ :=
  ((rtcFrom w.hour .hour).toNat, (rtcFrom w.minute .minute).toNat, (rtcFrom w.second .second).toNat)

/-- The picture of the clock, whatever the registers held and was on the port. -/
theorem clock_reads (w : Watch) (shiftData : Buffer) (port : Byte) :
    readClock (onDisplays shiftData port (watchRender w)) = some w.time := by
  have hlength := watchWord_length w
  have hcells := cells_length (visible_symbols (watchWord_visible w))
  have hfull : (List.replicate 10 (0 : Byte) ++ cells (watchWord w) ++
      List.replicate (54 - 6 * (watchWord w).length) 0).length = 64 := by
    rw [List.length_append, List.length_append, List.length_replicate, List.length_replicate,
      hcells]
    omega
  have hindent : (List.replicate 10 (0 : Byte)).length = imageIndent := rfl
  have hfields : (watchWord w).splitOn fontColon =
      [numberWord (rtcFrom w.hour .hour) renderLeadingDisable,
        numberWord (rtcFrom w.minute .minute) renderLeadingTen,
        numberWord (rtcFrom w.second .second) renderLeadingTen] := by
    rw [watchWord, List.append_assoc, List.cons_append,
      List.splitOn_append_cons_self_of_not_mem (number_colonless _ _),
      List.splitOn_append_cons_self_of_not_mem (number_colonless _ _),
      List.splitOn_eq_singleton (number_colonless _ _)]
  rw [onDisplays_drawn shiftData (watchRender_drawn w) hfull port, readClock,
    List.append_assoc, List.drop_left' hindent,
    readWord_cells (watchWord_visible w) (by omega) _ fun _ => by omega, hfields]
  simp only [digitsOf_number, Watch.time]

/-- A callback that stores renders what it has stored. -/
theorem readCallback_cases (w : Watch) (tag : Byte) (status : AvrTwi.TwiStatus) (len : Byte)
    (value : List Byte) :
    readCallback w tag status len value = (w, none) ∨
      ∃ w', readCallback w tag status len value = (w', some (watchRender w')) := by
  unfold readCallback
  split
  · exact .inl rfl
  · exact .inr ⟨_, rfl⟩

theorem watchCallback_cases (w : Watch) (report : Option AvrTwi.TwiReport) :
    watchCallback w report = (w, none) ∨
      ∃ w', watchCallback w report = (w', some (watchRender w')) := by
  rcases report with _ | ⟨_, _, _⟩ | ⟨_, tag, status, len, value⟩
  · exact .inl rfl
  · exact .inl rfl
  · exact readCallback_cases w tag status len value

end LedServer.Avr
