import LedServer.Separated
import LedServer.PiHandle

set_option autoImplicit false

/-!
# `split_info`

The text is read field by field. A position behind the last field is not noticed
until the next field is asked for.
-/
namespace LedServer.Pi

def hyphen : Byte := 0x2D

/-- A field that begins with an unsigned number of at most 255. -/
def IsNumber (field : Text) (value : Byte) : Prop := readUnsigned field = (value.toNat, false)

/-- The first three fields of a text are a value, a minimum and a maximum. -/
def IsInfo (src : Text) (value min max : Byte) : Prop :=
  ∃ a b c more, src.splitOn hyphen = a :: b :: c :: more ∧
    IsNumber a value ∧ IsNumber b min ∧ IsNumber c max

/-- `split_info` returns, and succeeds on a value, a minimum and a maximum only. -/
def SplitsRight (src : Text) : Prop :=
  splitInfo src ≠ .thrown ∧
    ∀ value min max, splitInfo src = .ok (value, min, max) ↔ IsInfo src value min max

/-- One or two fields, all of them numbers. -/
def RunsOut (src : Text) : Prop :=
  (src.splitOn hyphen).length < 3 ∧ ∀ field ∈ src.splitOn hyphen, ∃ value, IsNumber field value

theorem toUint8_eq (field : Text) (value : Byte) :
    toUint8 field = some value ↔ IsNumber field value := by
  unfold toUint8 IsNumber
  obtain ⟨tmp, failed⟩ := readUnsigned field
  have hvalue := value.isLt
  dsimp only
  rw [Prod.mk.injEq]
  by_cases hno : failed = true ∨ tmp > 0xFF
  · rw [if_pos hno]
    constructor
    · intro h
      cases h
    · rintro ⟨rfl, rfl⟩
      rcases hno with hno | hno
      · cases hno
      · omega
  · obtain ⟨hfailed, htmp⟩ := not_or.mp hno
    rw [if_neg hno, Option.some.injEq]
    constructor
    · rintro rfl
      rw [BitVec.toNat_ofNat]
      exact ⟨by omega, by simpa using hfailed⟩
    · rintro ⟨rfl, -⟩
      rw [BitVec.ofNat_toNat, BitVec.setWidth_eq]

/-- What one call of `split_to_uint8` does to the fields. -/
theorem splitToUint8_cases (src : Text) :
    (src.splitOn hyphen = [src] ∧ splitToUint8 src = (toUint8 src, none)) ∨
      ∃ field rest, src.splitOn hyphen = field :: rest.splitOn hyphen ∧
        splitToUint8 src = (toUint8 field, some rest) := by
  by_cases h : hyphen ∈ src
  · refine .inr ⟨_, _, Separated.splitOn_cut h, ?_⟩
    have hdrop := Separated.dropWhile_cut h
    unfold hyphen at hdrop ⊢
    unfold splitToUint8
    rw [hdrop]
    rfl
  · obtain ⟨htake, hdrop⟩ := Separated.takeWhile_uncut h
    refine .inl ⟨List.splitOn_eq_singleton h, ?_⟩
    unfold hyphen at htake hdrop
    unfold splitToUint8
    rw [htake, hdrop]

/-- What three calls make of the numbers of the fields, or the lack of them. -/
def splitNumbers : List (Option Byte) → Outcome (Byte × Byte × Byte)
  | [some _] => .thrown
  | [some _, some _] => .thrown
  | some value :: some min :: some max :: _ => .ok (value, min, max)
  | _ => .failed

theorem splitInfo_eq (src : Text) :
    splitInfo src = splitNumbers ((src.splitOn hyphen).map toUint8) := by
  rcases splitToUint8_cases src with ⟨hf, he⟩ | ⟨a, src, hf, he⟩
  · rw [splitInfo, hf, he, List.map_singleton]
    cases toUint8 src <;> rfl
  · rw [splitInfo, hf, he, List.map_cons]
    cases toUint8 a with
    | none => rfl
    | some value =>
      rcases splitToUint8_cases src with ⟨hf, he⟩ | ⟨b, src, hf, he⟩
      · dsimp only
        rw [hf, he, List.map_singleton]
        cases toUint8 src <;> rfl
      · dsimp only
        rw [hf, he, List.map_cons]
        cases toUint8 b with
        | none => rfl
        | some min =>
          rcases splitToUint8_cases src with ⟨hf, he⟩ | ⟨c, src, hf, he⟩
          · dsimp only
            rw [hf, he, List.map_singleton]
            cases toUint8 src <;> rfl
          · dsimp only
            rw [hf, he, List.map_cons]
            cases toUint8 c <;> rfl

/-- `split_info` does what its caller expects but on a text that has run out of
fields. -/
theorem splitInfo_right_iff (src : Text) : SplitsRight src ↔ ¬ RunsOut src := by
  unfold SplitsRight RunsOut IsInfo
  simp only [splitInfo_eq, ← toUint8_eq]
  match src.splitOn hyphen, List.splitOn_ne_nil hyphen src with
  | [a], _ => cases ha : toUint8 a <;> simp [splitNumbers, ha]
  | [a, b], _ => cases ha : toUint8 a <;> cases hb : toUint8 b <;> simp [splitNumbers, ha, hb]
  | a :: b :: c :: more, _ =>
    cases ha : toUint8 a <;> cases hb : toUint8 b <;> cases hc : toUint8 c <;>
      simp [splitNumbers, ha, hb, hc, eq_comm]

/-- A number alone, of which the caller would log that it is no
value-min-max. -/
theorem splitInfo_thrown : ¬ SplitsRight (text "50") := by
  intro h
  have hthrown : splitInfo (text "50") = .thrown := rfl
  exact h.1 hthrown

end LedServer.Pi
