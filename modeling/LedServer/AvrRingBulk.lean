import LedServer.AvrRingContents

set_option autoImplicit false

/-!
# Arrays and bytes of a ring

`ring_array_fill` and `ring_array_drain` are calls of the byte functions in a
row, none of which fails, and `ring_byte_get` looks at what such a call would
hand out.
-/
namespace LedServer.AvrRing

variable {size : Byte}

/-- Calls of `ring_byte_fill` in a row that all return 1. -/
def byteFills (r : Ring size) : List Byte → Option (Ring size)
  | [] => some r
  | byte :: bytes =>
    match ringByteFill r byte with
    | (r, true) => byteFills r bytes
    | (_, false) => none

/-- Calls of `ring_byte_drain` in a row that all return 1, and their bytes. -/
def byteDrains (r : Ring size) : ℕ → Option (Ring size × List Byte)
  | 0 => some (r, [])
  | k + 1 =>
    match ringByteDrain r with
    | (r, some byte) => (byteDrains r k).map fun p => (p.1, byte :: p.2)
    | (_, none) => none

def bufSize (b : Buf) : Byte := ringSize 64 b.start b.finish

def bufByteGet (b : Buf) (index : Byte) : Option Byte := ringByteGet b index

/-! ### In a row -/

/-- The indices meet with the last of the bytes at most, so no call fails. -/
theorem byteFills_eq {r : Ring size} (h : r.Valid) (bytes : List Byte)
    (room : r.count + bytes.length ≤ size.toNat) :
    byteFills r bytes = some (fillAll r bytes) := by
  induction bytes generalizing r with
  | nil => rfl
  | cons b bytes ih =>
    rw [List.length_cons] at room
    have hroom : r.count < size.toNat := by omega
    have hcount := byteFill_count h hroom b
    have hpair : ringByteFill r b = ((ringByteFill r b).1, true) := by
      rw [byteFill_eq h hroom b]
    have hrest : (ringByteFill r b).1.count + bytes.length ≤ size.toNat := by
      rw [hcount]
      split_ifs <;> omega
    rw [byteFills, hpair]
    exact ih (byteFill_valid h b) hrest

theorem byteDrains_eq {r : Ring size} (h : r.Valid) (array : List Byte) (i k : ℕ)
    (held : k ≤ r.count) :
    byteDrains r k = some ((ringDrainLoop r array i k).1, r.contents.take k) := by
  induction k generalizing r array i with
  | zero => rfl
  | succ k ih =>
    cases hc : r.contents with
    | nil =>
      rw [← contents_length, hc, List.length_nil] at held
      omega
    | cons b rest =>
      obtain ⟨hb, hr⟩ := byteDrain_cons h hc
      have hpair : ringByteDrain r = ((ringByteDrain r).1, some b) := by rw [← hb]
      have hheld : k ≤ (ringByteDrain r).1.count := by
        rw [← contents_length, hc, List.length_cons] at held
        rw [← contents_length, hr]
        omega
      rw [byteDrains, ringDrainLoop, hpair]
      dsimp only
      rw [ih (byteDrain_valid h) (array.set i b) (i + 1) hheld, hr]
      rfl

/-- The two ways to compute the cell are the index modulo `size`. -/
theorem byteGet_eq {r : Ring size} (h : r.Valid) (i : Byte) :
    ringByteGet r i = r.contents[i.toNat]? := by
  have hle := count_le h
  unfold ringByteGet
  by_cases hi : i.toNat < r.count
  · have hsize : ¬ i ≥ size := by bv_omega
    have hheld : ringIsDrainable size r.start r.finish (i + 1) = true := by
      rw [drainable_iff]
      bv_omega
    have hget : r.contents[i.toNat]? = some (r.cell (r.index i.toNat)) := by
      simp only [Ring.contents, List.getElem?_map, List.getElem?_range hi, Option.map_some]
    rw [if_neg hsize, if_pos hheld, hget, index_eq h (by omega)]
    dsimp only
    split_ifs <;> rfl
  · have hnone : r.contents[i.toNat]? = none := by
      rw [List.getElem?_eq_none_iff, contents_length]
      omega
    rw [hnone]
    by_cases hsize : i ≥ size
    · rw [if_pos hsize]
    · have hshort : ¬ ringIsDrainable size r.start r.finish (i + 1) = true := by
        rw [drainable_iff]
        bv_omega
      rw [if_neg hsize, if_neg hshort]

/-! ### The array functions -/

theorem le_ringSpace_iff {r : Ring size} (h : r.Valid) (n : Byte) :
    n ≤ ringSpace size r.start r.finish ↔ r.count + n.toNat ≤ size.toNat := by
  have hle := count_le h
  rw [BitVec.le_def, ringSpace_toNat h]
  omega

theorem arrayFill_calls {r : Ring size} (h : r.Valid) {source : List Byte} {n : Byte}
    (hsource : n.toNat ≤ source.length) :
    (n ≤ ringSpace size r.start r.finish → ∃ r', byteFills r (source.take n.toNat) = some r' ∧
      ringArrayFill r source n = (r', true)) ∧
    (¬ n ≤ ringSpace size r.start r.finish → ringArrayFill r source n = (r, false)) := by
  rw [le_ringSpace_iff h, ringArrayFill]
  constructor
  · intro hroom
    have hlength : (source.take n.toNat).length = n.toNat := by
      rw [List.length_take]
      omega
    refine ⟨fillAll r (source.take n.toNat), byteFills_eq h _ (by omega), ?_⟩
    rw [if_pos ((fillable_iff h n).mpr hroom)]
    rfl
  · intro hroom
    rw [if_neg fun hfill => hroom ((fillable_iff h n).mp hfill)]

theorem arrayDrain_calls {r : Ring size} (h : r.Valid) {dest : List Byte} {n : Byte}
    (hdest : n.toNat ≤ dest.length) :
    (n ≤ ringSize size r.start r.finish → ∃ r' bytes, byteDrains r n.toNat = some (r', bytes) ∧
      ringArrayDrain r dest n = (r', bytes ++ dest.drop n.toNat, true)) ∧
    (¬ n ≤ ringSize size r.start r.finish → ringArrayDrain r dest n = (r, dest, false)) := by
  have hheld : n ≤ ringSize size r.start r.finish ↔ n.toNat ≤ r.count := Iff.rfl
  rw [hheld]
  constructor
  · intro hheld
    have hlength : (r.contents.take n.toNat).length = n.toNat := by
      rw [List.length_take, contents_length]
      omega
    refine ⟨_, _, byteDrains_eq h dest 0 n.toNat hheld, ?_⟩
    rw [arrayDrain_eq dest n hheld, (drainLoop_eq h dest 0 n.toNat hheld).2.2,
      storeFrom_eq dest 0 _ (by omega), hlength, Nat.zero_add, List.take_zero, List.nil_append]
  · exact arrayDrain_short dest n

theorem byteGet_calls {r : Ring size} (h : r.Valid) (i : Byte) :
    (i < ringSize size r.start r.finish → ∃ r' bytes b,
      byteDrains r (i.toNat + 1) = some (r', bytes ++ [b]) ∧ bytes.length = i.toNat ∧
        ringByteGet r i = some b) ∧
    (¬ i < ringSize size r.start r.finish → ringByteGet r i = none) := by
  have hheld : i < ringSize size r.start r.finish ↔ i.toNat < r.count := Iff.rfl
  rw [hheld, byteGet_eq h]
  constructor
  · intro hi
    have hlt : i.toNat < r.contents.length := by rwa [contents_length]
    refine ⟨(ringDrainLoop r [] 0 (i.toNat + 1)).1, r.contents.take i.toNat,
      r.contents[i.toNat], ?_, ?_, List.getElem?_eq_getElem hlt⟩
    · rw [byteDrains_eq h [] 0 _ hi, List.take_add_one, List.getElem?_eq_getElem hlt]
      rfl
    · rw [List.length_take]
      omega
  · intro hi
    rw [List.getElem?_eq_none_iff, contents_length]
    omega

/-- The array functions and `ring_byte_get` against calls in a row, in every
ring and for every argument. -/
theorem calls_in_a_row {r : Ring size} (h : r.Valid) {source dest : List Byte} {n : Byte}
    (hsource : n.toNat ≤ source.length) (hdest : n.toNat ≤ dest.length) (i : Byte) :
    ((n ≤ ringSpace size r.start r.finish → ∃ r', byteFills r (source.take n.toNat) = some r' ∧
        ringArrayFill r source n = (r', true)) ∧
      (¬ n ≤ ringSpace size r.start r.finish → ringArrayFill r source n = (r, false))) ∧
    ((n ≤ ringSize size r.start r.finish → ∃ r' bytes,
        byteDrains r n.toNat = some (r', bytes) ∧
          ringArrayDrain r dest n = (r', bytes ++ dest.drop n.toNat, true)) ∧
      (¬ n ≤ ringSize size r.start r.finish → ringArrayDrain r dest n = (r, dest, false))) ∧
    ((i < ringSize size r.start r.finish → ∃ r' bytes b,
        byteDrains r (i.toNat + 1) = some (r', bytes ++ [b]) ∧ bytes.length = i.toNat ∧
          ringByteGet r i = some b) ∧
      (¬ i < ringSize size r.start r.finish → ringByteGet r i = none)) :=
  ⟨arrayFill_calls h hsource, arrayDrain_calls h hdest, byteGet_calls h i⟩

/-- Three cells, the second held byte behind the wrap and one cell free. -/
def wrapped : Ring 3 := ⟨[7, 8, 9], 2, 1, rfl⟩

theorem calls_in_a_row_wrapped :
    (1 ≤ ringSpace 3 2 1 → ∃ r', byteFills wrapped [5] = some r' ∧
        ringArrayFill wrapped [5] 1 = (r', true)) ∧
      (1 < ringSize 3 2 1 → ∃ r' bytes b, byteDrains wrapped 2 = some (r', bytes ++ [b]) ∧
        bytes.length = 1 ∧ ringByteGet wrapped 1 = some b) := by
  have hvalid : wrapped.Valid := ⟨by decide, by decide⟩
  have hsource : (1 : Byte).toNat ≤ [(5 : Byte)].length := by decide
  obtain ⟨⟨hfill, -⟩, -, hget, -⟩ := calls_in_a_row hvalid hsource hsource 1
  exact ⟨hfill, hget⟩

end LedServer.AvrRing
