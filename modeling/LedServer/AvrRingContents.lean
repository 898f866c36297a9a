import LedServer.AvrRing

set_option autoImplicit false

/-!
# What a ring holds

The bytes held, oldest first, read off the cells and the two indices, and what
each function of `ring.c` does to them.
-/
namespace LedServer.AvrRing

variable {size : Byte}

def Ring.count (r : Ring size) : ℕ := (ringSize size r.start r.finish).toNat

/-- The cell of the `i`-th oldest byte. -/
def Ring.index (r : Ring size) (i : ℕ) : ℕ := (r.start.toNat + i) % size.toNat

def Ring.contents (r : Ring size) : List Byte :=
  (List.range r.count).map fun i => r.cell (r.index i)

structure Ring.Valid (r : Ring size) : Prop where
  start_lt : r.start < size
  finish_le : r.finish ≤ size

@[simp] theorem contents_length (r : Ring size) : r.contents.length = r.count := by
  simp [Ring.contents]

@[simp] theorem store_start (r : Ring size) (i : ℕ) (b : Byte) : (r.store i b).start = r.start := rfl

@[simp] theorem store_finish (r : Ring size) (i : ℕ) (b : Byte) :
    (r.store i b).finish = r.finish := rfl

theorem store_cell (r : Ring size) (i j : ℕ) (b : Byte) (hi : i < size.toNat) :
    (r.store i b).cell j = if j = i then b else r.cell j := by
  have hl : i < r.data.length := by rw [r.data_length]; exact hi
  unfold Ring.cell Ring.store
  simp only [List.getD_eq_getElem?_getD, List.getElem?_set, hl, ↓reduceIte]
  by_cases h : j = i
  · simp [h]
  · simp [h, Ne.symm h]

theorem count_eq {r : Ring size} (h : r.Valid) :
    r.count = if r.start.toNat ≤ r.finish.toNat then r.finish.toNat - r.start.toNat
      else size.toNat - r.start.toNat + r.finish.toNat := by
  obtain ⟨hs, hf⟩ := h
  unfold Ring.count ringSize
  split <;> split <;> bv_omega

theorem count_le {r : Ring size} (h : r.Valid) : r.count ≤ size.toNat := by
  obtain ⟨hs, hf⟩ := h
  rw [count_eq ⟨hs, hf⟩]
  split <;> bv_omega

theorem index_lt {r : Ring size} (h : r.Valid) (i : ℕ) : r.index i < size.toNat := by
  have hs := h.start_lt
  exact Nat.mod_lt _ (by bv_omega)

theorem index_zero {r : Ring size} (h : r.Valid) : r.index 0 = r.start.toNat := by
  have hs := h.start_lt
  exact Nat.mod_eq_of_lt (by bv_omega)

theorem index_eq {r : Ring size} (h : r.Valid) {i : ℕ} (hi : i ≤ size.toNat) :
    r.index i = if r.start.toNat + i < size.toNat then r.start.toNat + i
      else r.start.toNat + i - size.toNat := by
  have hs := h.start_lt
  unfold Ring.index
  split
  · rename_i hlt
    exact Nat.mod_eq_of_lt hlt
  · rename_i hge
    rw [Nat.mod_eq_sub_mod (by omega)]
    exact Nat.mod_eq_of_lt (by bv_omega)

theorem index_ne {r : Ring size} (h : r.Valid) {i j : ℕ} (hij : i < j) (hj : j < size.toNat) :
    r.index i ≠ r.index j := by
  rw [index_eq h (by omega), index_eq h (by omega)]
  have hs := h.start_lt
  split <;> split <;> bv_omega

theorem ringSpace_toNat {r : Ring size} (h : r.Valid) :
    (ringSpace size r.start r.finish).toNat = size.toNat - r.count := by
  have hc := count_le h
  unfold ringSpace
  unfold Ring.count at *
  bv_omega

theorem fillable_iff {r : Ring size} (h : r.Valid) (n : Byte) :
    ringIsFillable size r.start r.finish n = true ↔ r.count + n.toNat ≤ size.toNat := by
  have hc := count_le h
  unfold ringIsFillable
  unfold Ring.count at *
  simp only [decide_eq_true_eq]
  bv_omega

theorem drainable_iff (r : Ring size) (n : Byte) :
    ringIsDrainable size r.start r.finish n = true ↔ n.toNat ≤ r.count := by
  unfold ringIsDrainable Ring.count
  simp only [decide_eq_true_eq]
  bv_omega

theorem ringInit_valid (hsize : 1 ≤ size) : (ringInit size).Valid :=
  ⟨by simp only [ringInit]; bv_omega, by simp only [ringInit]; bv_omega⟩

theorem ringClear_valid (r : Ring size) (hsize : 1 ≤ size) : (ringClear r).Valid :=
  ⟨by simp only [ringClear]; bv_omega, by simp only [ringClear]; bv_omega⟩

@[simp] theorem ringInit_contents (size : Byte) : (ringInit size).contents = [] := by
  simp [Ring.contents, Ring.count, ringInit, ringSize]

@[simp] theorem ringClear_contents (r : Ring size) : (ringClear r).contents = [] := by
  simp [Ring.contents, Ring.count, ringClear, ringSize]

/-! ### One byte in -/

/-- Where a fill writes: the cell after the newest byte. -/
theorem fill_cell {r : Ring size} (h : r.Valid) (room : r.count < size.toNat) :
    (if r.finish < size then r.finish.toNat else 0) = r.index r.count := by
  obtain ⟨hs, hf⟩ := h
  have hc := count_eq ⟨hs, hf⟩
  rw [index_eq ⟨hs, hf⟩ (by omega)]
  split at hc <;> split <;> split <;> bv_omega

theorem byteFill_eq {r : Ring size} (h : r.Valid) (room : r.count < size.toNat) (b : Byte) :
    ringByteFill r b =
      ({ r.store (r.index r.count) b with
          finish := if r.finish < size then r.finish + 1 else 1 }, true) := by
  have hfill : ringIsFillable size r.start r.finish 1 = true :=
    (fillable_iff h 1).mpr (by simpa using room)
  have hcell := fill_cell h room
  unfold ringByteFill
  split_ifs at hcell ⊢ <;> simp [hcell]

theorem byteFill_full {r : Ring size} (h : r.Valid) (full : ¬ r.count < size.toNat) (b : Byte) :
    ringByteFill r b = (r, false) := by
  have hfill : ¬ ringIsFillable size r.start r.finish 1 = true := by
    rw [fillable_iff h 1]; simpa using full
  unfold ringByteFill
  rw [if_neg hfill]

theorem byteFill_start (r : Ring size) (b : Byte) : (ringByteFill r b).1.start = r.start := by
  unfold ringByteFill
  split_ifs <;> rfl

theorem byteFill_valid {r : Ring size} (h : r.Valid) (b : Byte) : (ringByteFill r b).1.Valid := by
  by_cases room : r.count < size.toNat
  · obtain ⟨hs, hf⟩ := h
    rw [byteFill_eq ⟨hs, hf⟩ room]
    refine ⟨hs, ?_⟩
    dsimp only
    split_ifs <;> bv_omega
  · rw [byteFill_full h room]; exact h

/-- The bytes that follow the fill: one more, unless the ring is now full
behind a positive `start`, when the two indices meet and nothing is held. -/
theorem byteFill_count {r : Ring size} (h : r.Valid) (room : r.count < size.toNat) (b : Byte) :
    (ringByteFill r b).1.count =
      if 0 < r.start.toNat ∧ r.count + 1 = size.toNat then 0 else r.count + 1 := by
  have hv := byteFill_valid h b
  obtain ⟨hs, hf⟩ := h
  have hc := count_eq ⟨hs, hf⟩
  rw [count_eq hv]
  rw [byteFill_eq ⟨hs, hf⟩ room]
  dsimp only [store_start]
  split at hc <;> split_ifs <;> bv_omega

theorem byteFill_contents {r : Ring size} (h : r.Valid) (room : r.count < size.toNat)
    (safe : ¬ (0 < r.start.toNat ∧ r.count + 1 = size.toNat)) (b : Byte) :
    (ringByteFill r b).1.contents = r.contents ++ [b] := by
  have hc := byteFill_count h room b
  rw [if_neg safe] at hc
  unfold Ring.contents
  rw [hc, List.range_succ, List.map_append]
  have hi : ∀ i, (ringByteFill r b).1.index i = r.index i := by
    intro i; unfold Ring.index; rw [byteFill_start]
  have hcell : ∀ j, (ringByteFill r b).1.cell j = if j = r.index r.count then b else r.cell j := by
    intro j
    rw [byteFill_eq h room]
    exact store_cell r _ j b (index_lt h _)
  congr 1
  · apply List.map_congr_left
    intro i hm
    have hlt : i < r.count := List.mem_range.mp hm
    rw [hi, hcell, if_neg (index_ne h hlt room)]
  · simp [hi, hcell]

theorem byteFill_lost {r : Ring size} (h : r.Valid) (hstart : 0 < r.start.toNat)
    (hfull : r.count + 1 = size.toNat) (b : Byte) : (ringByteFill r b).1.contents = [] := by
  have hc := byteFill_count h (by omega) b
  rw [if_pos ⟨hstart, hfull⟩] at hc
  simp [Ring.contents, hc]

/-! ### One byte out -/

theorem byteDrain_empty {r : Ring size} (h : r.contents = []) : ringByteDrain r = (r, none) := by
  have hc : r.count = 0 := by rw [← contents_length, h]; rfl
  have hd : ¬ ringIsDrainable size r.start r.finish 1 = true := by
    rw [drainable_iff, hc]; decide
  unfold ringByteDrain
  rw [if_neg hd]

theorem byteDrain_valid {r : Ring size} (h : r.Valid) : (ringByteDrain r).1.Valid := by
  obtain ⟨hs, hf⟩ := h
  unfold ringByteDrain
  split
  · constructor <;> dsimp only <;> split_ifs <;> bv_omega
  · exact ⟨hs, hf⟩

theorem byteDrain_indices {r : Ring size} (h : r.Valid) (held : 0 < r.count) :
    (ringByteDrain r).1.count + 1 = r.count ∧
      ∀ i, i + 1 < r.count → (ringByteDrain r).1.index i = r.index (i + 1) := by
  have hv := byteDrain_valid h
  obtain ⟨hs, hf⟩ := h
  have hc := count_eq ⟨hs, hf⟩
  have hle := count_le ⟨hs, hf⟩
  have hd : ringIsDrainable size r.start r.finish 1 = true := by
    rw [drainable_iff]; exact held
  have hcount := count_eq hv
  have hindex : ∀ i, i ≤ size.toNat → _ := fun i => @index_eq _ _ hv i
  rw [hcount]
  unfold ringByteDrain at hindex ⊢
  simp only [hd, ↓reduceIte] at hindex ⊢
  constructor
  · split at hc <;> split_ifs <;> bv_omega
  · intro i hi
    rw [hindex i (by omega), index_eq ⟨hs, hf⟩ (by omega)]
    split at hc <;> split_ifs <;> bv_omega

theorem byteDrain_cell (r : Ring size) (j : ℕ) : (ringByteDrain r).1.cell j = r.cell j := by
  unfold ringByteDrain
  split <;> rfl

/-- A drain hands out the oldest byte and keeps the rest in order. -/
theorem byteDrain_cons {r : Ring size} (h : r.Valid) {b : Byte} {rest : List Byte}
    (hc : r.contents = b :: rest) :
    (ringByteDrain r).2 = some b ∧ (ringByteDrain r).1.contents = rest := by
  have held : r.count = rest.length + 1 := by rw [← contents_length, hc]; rfl
  obtain ⟨hcount, hindex⟩ := byteDrain_indices h (by omega)
  have hsplit : r.contents = r.cell (r.index 0) ::
      (List.range rest.length).map fun i => r.cell (r.index (i + 1)) := by
    simp only [Ring.contents, held, List.range_succ_eq_map, List.map_cons, List.map_map,
      Function.comp_def, Nat.succ_eq_add_one]
  rw [hc] at hsplit
  obtain ⟨hb, hrest⟩ := List.cons.inj hsplit
  constructor
  · have hd : ringIsDrainable size r.start r.finish 1 = true := by
      rw [drainable_iff, held]; simp
    unfold ringByteDrain
    rw [if_pos hd, hb, index_zero h]
  · have hcount' : (ringByteDrain r).1.count = rest.length := by omega
    rw [hrest]
    unfold Ring.contents
    rw [hcount']
    apply List.map_congr_left
    intro i hm
    have hlt : i < rest.length := List.mem_range.mp hm
    rw [byteDrain_cell, hindex i (by omega)]

/-! ### Arrays -/

def fillAll (r : Ring size) (bytes : List Byte) : Ring size :=
  bytes.foldl (fun r byte => (ringByteFill r byte).1) r

@[simp] theorem fillAll_nil (r : Ring size) : fillAll r [] = r := rfl

@[simp] theorem fillAll_cons (r : Ring size) (b : Byte) (bytes : List Byte) :
    fillAll r (b :: bytes) = fillAll (ringByteFill r b).1 bytes := rfl

theorem fillAll_valid {r : Ring size} (h : r.Valid) (bytes : List Byte) :
    (fillAll r bytes).Valid := by
  induction bytes generalizing r with
  | nil => exact h
  | cons b bytes ih => exact ih (byteFill_valid h b)

theorem fillAll_start (r : Ring size) (bytes : List Byte) : (fillAll r bytes).start = r.start := by
  induction bytes generalizing r with
  | nil => rfl
  | cons b bytes ih => rw [fillAll_cons, ih, byteFill_start]

/-- A fill of several bytes meets the indices only with its last byte. -/
theorem fillAll_contents {r : Ring size} (h : r.Valid) (bytes : List Byte)
    (room : r.count + bytes.length ≤ size.toNat)
    (safe : ¬ (0 < r.start.toNat ∧ bytes ≠ [] ∧ r.count + bytes.length = size.toNat)) :
    (fillAll r bytes).contents = r.contents ++ bytes := by
  induction bytes generalizing r with
  | nil => simp
  | cons b bytes ih =>
    simp only [List.length_cons] at room safe
    have hone : ¬ (0 < r.start.toNat ∧ r.count + 1 = size.toNat) := by
      rintro ⟨hs, hc⟩
      exact safe ⟨hs, by simp, by omega⟩
    have hcount := byteFill_count h (by omega) b
    rw [if_neg hone] at hcount
    have hrest := ih (byteFill_valid h b) (by omega) (by
      rw [byteFill_start, hcount]
      rintro ⟨hs, -, hc⟩
      exact safe ⟨hs, by simp, by omega⟩)
    rw [fillAll_cons, hrest, byteFill_contents h (by omega) hone b]
    simp

theorem fillAll_lost {r : Ring size} (h : r.Valid) (bytes : List Byte) (hstart : 0 < r.start.toNat)
    (hne : bytes ≠ []) (hfull : r.count + bytes.length = size.toNat) :
    (fillAll r bytes).contents = [] := by
  induction bytes generalizing r with
  | nil => exact absurd rfl hne
  | cons b bytes ih =>
    simp only [List.length_cons] at hfull
    cases bytes with
    | nil => exact byteFill_lost h hstart hfull b
    | cons c bytes =>
      simp only [List.length_cons] at hfull
      have hcount := byteFill_count h (by omega) b
      rw [if_neg (by omega)] at hcount
      exact ih (byteFill_valid h b) (by rwa [byteFill_start]) (by simp)
        (by simp only [List.length_cons]; omega)

theorem arrayFill_eq {r : Ring size} (h : r.Valid) (bytes : List Byte) (hlen : bytes.length < 256) :
    ringArrayFill r bytes (BitVec.ofNat 8 bytes.length) =
      if r.count + bytes.length ≤ size.toNat then (fillAll r bytes, true) else (r, false) := by
  have hn : (BitVec.ofNat 8 bytes.length).toNat = bytes.length := by bv_omega
  have hfill := fillable_iff h (BitVec.ofNat 8 bytes.length)
  rw [hn] at hfill
  unfold ringArrayFill fillAll
  simp only [hn, List.take_length]
  split_ifs with h1 h2 h2
  · rfl
  · exact absurd (hfill.mp h1) h2
  · exact absurd (hfill.mpr h2) h1
  · rfl

/-- Successive stores into an array from index `i` on. -/
def storeFrom (array : List Byte) (i : ℕ) : List Byte → List Byte
  | [] => array
  | b :: bytes => storeFrom (array.set i b) (i + 1) bytes

theorem storeFrom_eq (array : List Byte) (i : ℕ) (bytes : List Byte)
    (fits : i + bytes.length ≤ array.length) :
    storeFrom array i bytes = array.take i ++ bytes ++ array.drop (i + bytes.length) := by
  induction bytes generalizing array i with
  | nil => simp [storeFrom]
  | cons b bytes ih =>
    simp only [List.length_cons] at fits
    have htake : (array.set i b).take (i + 1) = array.take i ++ [b] := by
      rw [List.take_add_one, List.take_set_of_le (le_refl i),
        List.getElem?_set_self (by omega)]
      rfl
    have hdrop : (array.set i b).drop (i + 1 + bytes.length) = array.drop (i + 1 + bytes.length) :=
      List.drop_set_of_lt (by omega)
    rw [storeFrom, ih _ _ (by simp only [List.length_set]; omega), htake, hdrop, List.length_cons]
    simp only [List.append_assoc, List.singleton_append]
    congr 3
    omega

theorem storeFrom_length (array : List Byte) (i : ℕ) (bytes : List Byte) :
    (storeFrom array i bytes).length = array.length := by
  induction bytes generalizing array i with
  | nil => rfl
  | cons b bytes ih => rw [storeFrom, ih, List.length_set]

theorem drainLoop_eq {r : Ring size} (h : r.Valid) (array : List Byte) (i k : ℕ)
    (held : k ≤ r.count) :
    (ringDrainLoop r array i k).1.Valid ∧
      (ringDrainLoop r array i k).1.contents = r.contents.drop k ∧
      (ringDrainLoop r array i k).2 = storeFrom array i (r.contents.take k) := by
  induction k generalizing r array i with
  | zero => exact ⟨h, rfl, rfl⟩
  | succ k ih =>
    cases hc : r.contents with
    | nil =>
      have hz : r.count = 0 := by rw [← contents_length, hc]; rfl
      omega
    | cons b rest =>
      obtain ⟨hb, hr⟩ := byteDrain_cons h hc
      have hl : rest.length + 1 = r.count := by rw [← contents_length, hc]; rfl
      have hcount : (ringByteDrain r).1.count = rest.length := by rw [← contents_length, hr]
      have hpair : ringByteDrain r = ((ringByteDrain r).1, some b) := by rw [← hb]
      obtain ⟨h1, h2, h3⟩ := ih (byteDrain_valid h) (array.set i b) (i + 1) (by omega)
      rw [hr] at h2 h3
      rw [ringDrainLoop, hpair]
      exact ⟨h1, h2, h3⟩

theorem arrayDrain_eq {r : Ring size} (array : List Byte) (n : Byte)
    (held : n.toNat ≤ r.count) :
    ringArrayDrain r array n = ((ringDrainLoop r array 0 n.toNat).1,
      (ringDrainLoop r array 0 n.toNat).2, true) := by
  have hd : ringIsDrainable size r.start r.finish n = true := by rwa [drainable_iff]
  unfold ringArrayDrain
  rw [if_pos hd]

theorem arrayDrain_short {r : Ring size} (array : List Byte) (n : Byte)
    (short : ¬ n.toNat ≤ r.count) : ringArrayDrain r array n = (r, array, false) := by
  have hd : ¬ ringIsDrainable size r.start r.finish n = true := by rwa [drainable_iff]
  unfold ringArrayDrain
  rw [if_neg hd]

end LedServer.AvrRing
