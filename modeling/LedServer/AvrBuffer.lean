import LedServer.AvrRingContents

set_option autoImplicit false

/-!
# A buffer that is not filled to capacity

Below capacity a `buffer_t` is a plain queue of bytes.
-/
namespace LedServer.AvrRing

theorem bufferInit_valid : bufferInit.Valid := ringInit_valid (by decide)

theorem bufferClear_valid (b : Buffer) : (bufferClear b).Valid := ringClear_valid b (by decide)

theorem bufferSize_toNat (b : Buffer) : (bufferSize b).toNat = b.count := rfl

theorem bufferSpace_toNat {b : Buffer} (h : b.Valid) : (bufferSpace b).toNat = 255 - b.count :=
  ringSpace_toNat h

theorem buffer_count_le {b : Buffer} (h : b.Valid) : b.count ≤ 255 := count_le h

/-- A byte that is filled in is kept: a cell is free, and the buffer is not filled
to capacity behind a positive start. -/
def KeepsByte (b : Buffer) : Prop := b.count < 255 ∧ ¬ (0 < b.start.toNat ∧ b.count + 1 = 255)

instance (b : Buffer) : Decidable (KeepsByte b) := inferInstanceAs (Decidable (_ ∧ _))

theorem keepsByte_of_below {b : Buffer} (h : b.contents.length + 1 < 255) : KeepsByte b := by
  rw [contents_length] at h
  exact ⟨by omega, by omega⟩

theorem bufferByteFill_kept {b : Buffer} (h : b.Valid) (x : Byte) (kept : KeepsByte b) :
    ∃ b' : Buffer, bufferByteFill b x = (b', true) ∧ b'.Valid ∧
      b'.contents = b.contents ++ [x] := by
  have hfill : (ringByteFill b x).2 = true := by rw [byteFill_eq h kept.1]
  exact ⟨(ringByteFill b x).1, by rw [← hfill]; rfl, byteFill_valid h x,
    byteFill_contents h kept.1 kept.2 x⟩

/-- Accepted while a cell is free; what the buffer then holds depends on `start`. -/
theorem bufferByteFill_free {b : Buffer} (h : b.Valid) (x : Byte) (room : b.count < 255) :
    ∃ b' : Buffer, bufferByteFill b x = (b', true) ∧ b'.Valid := by
  have hfill : (ringByteFill b x).2 = true := by rw [byteFill_eq h room]
  exact ⟨(ringByteFill b x).1, by rw [← hfill]; rfl, byteFill_valid h x⟩

theorem bufferByteFill_full {b : Buffer} (h : b.Valid) (x : Byte) (full : ¬ b.count < 255) :
    bufferByteFill b x = (b, false) := byteFill_full h full x

/-- A fill adds the byte, or is refused, or loses everything. -/
theorem bufferByteFill_prefix {b : Buffer} (h : b.Valid) (x : Byte) :
    (bufferByteFill b x).1.contents <+: b.contents ++ [x] := by
  unfold bufferByteFill
  by_cases room : b.count < (255 : Byte).toNat
  · by_cases lost : 0 < b.start.toNat ∧ b.count + 1 = (255 : Byte).toNat
    · rw [byteFill_lost h lost.1 lost.2]
      exact List.nil_prefix
    · rw [byteFill_contents h room lost]
  · rw [byteFill_full h room]
    exact List.prefix_append _ _

theorem bufferByteDrain_nil {b : Buffer} (h : b.contents = []) : bufferByteDrain b = (b, none) :=
  byteDrain_empty h

theorem bufferByteDrain_cons {b : Buffer} (h : b.Valid) {x : Byte} {rest : List Byte}
    (hc : b.contents = x :: rest) :
    ∃ b' : Buffer, bufferByteDrain b = (b', some x) ∧ b'.Valid ∧ b'.contents = rest := by
  obtain ⟨hx, hr⟩ := byteDrain_cons h hc
  exact ⟨(ringByteDrain b).1, by rw [← hx]; rfl, byteDrain_valid h, hr⟩

theorem bufferArrayFill_fits {b : Buffer} (h : b.Valid) (array : List Byte) {n : Byte}
    (room : b.count + n.toNat < 255) :
    ∃ b' : Buffer, bufferArrayFill b array n = (b', true) ∧ b'.Valid ∧
      b'.contents = b.contents ++ array.take n.toNat := by
  have hsize : (255 : Byte).toNat = 255 := rfl
  have hlength : (array.take n.toNat).length ≤ n.toNat := List.length_take_le _ _
  have hfit : ringIsFillable 255 b.start b.finish n = true := by
    rw [fillable_iff h]
    omega
  refine ⟨fillAll b (array.take n.toNat), if_pos hfit, fillAll_valid h _, ?_⟩
  exact fillAll_contents h _ (by omega) (by omega)

theorem bufferArrayFill_refused {b : Buffer} (h : b.Valid) (array : List Byte) {n : Byte}
    (full : 255 < b.count + n.toNat) : bufferArrayFill b array n = (b, false) := by
  have hsize : (255 : Byte).toNat = 255 := rfl
  have hfit : ¬ ringIsFillable 255 b.start b.finish n = true := by
    rw [fillable_iff h]
    omega
  exact if_neg hfit

theorem bufferArrayFill_below {b : Buffer} (h : b.Valid) (array : List Byte) (n : Byte)
    {bytes : List Byte} (htake : array.take n.toNat = bytes) (hlen : bytes.length = n.toNat)
    (room : b.count + bytes.length < 255) :
    ∃ b' : Buffer, bufferArrayFill b array n = (b', true) ∧ b'.Valid ∧
      b'.contents = b.contents ++ bytes := by
  rw [hlen] at room
  rw [← htake]
  exact bufferArrayFill_fits h array room

theorem bufferArrayFill_valid {b : Buffer} (h : b.Valid) (array : List Byte) (n : Byte) :
    (bufferArrayFill b array n).1.Valid := by
  unfold bufferArrayFill ringArrayFill
  split_ifs
  · exact fillAll_valid h _
  · exact h

theorem bufferArrayFill_take (b : Buffer) (array : List Byte) (n : Byte) :
    bufferArrayFill b array n = bufferArrayFill b (array.take n.toNat) n := by
  unfold bufferArrayFill ringArrayFill
  rw [List.take_take, min_self]

/-- What the buffer holds after any fill, also one to capacity. -/
theorem bufferArrayFill_count {b : Buffer} (h : b.Valid) (bytes : List Byte)
    (hlen : bytes.length < 256) :
    (bufferArrayFill b bytes (BitVec.ofNat 8 bytes.length)).1.count =
      if 0 < b.start.toNat ∧ 0 < bytes.length ∧ b.count + bytes.length = 255 then 0
      else if b.count + bytes.length ≤ 255 then b.count + bytes.length else b.count := by
  have hsize : (255 : Byte).toNat = 255 := rfl
  have hfill := arrayFill_eq h bytes hlen
  unfold bufferArrayFill
  rw [hfill, hsize]
  by_cases hfull : 0 < b.start.toNat ∧ 0 < bytes.length ∧ b.count + bytes.length = 255
  · obtain ⟨hstart, hne, hlast⟩ := hfull
    rw [if_pos hlast.le, if_pos ⟨hstart, hne, hlast⟩, ← contents_length,
      fillAll_lost h bytes hstart (List.length_pos_iff.mp hne) hlast, List.length_nil]
  · rw [if_neg hfull]
    rw [List.length_pos_iff] at hfull
    by_cases hroom : b.count + bytes.length ≤ 255
    · rw [if_pos hroom, if_pos hroom, ← contents_length, fillAll_contents h bytes hroom hfull,
        List.length_append, contents_length]
    · rw [if_neg hroom, if_neg hroom]

theorem bufferArrayDrain_held {b : Buffer} (h : b.Valid) (array : List Byte) (n : Byte)
    (held : n.toNat ≤ b.contents.length) :
    ∃ b' : Buffer, bufferArrayDrain b array n =
        (b', storeFrom array 0 (b.contents.take n.toNat), true) ∧
      b'.Valid ∧ b'.contents = b.contents.drop n.toNat := by
  rw [contents_length] at held
  obtain ⟨hv, hc, hs⟩ := drainLoop_eq h array 0 n.toNat held
  refine ⟨_, ?_, hv, hc⟩
  rw [bufferArrayDrain, arrayDrain_eq array n held, hs]

theorem bufferArrayDrain_short {b : Buffer} (array : List Byte) (n : Byte)
    (short : ¬ n.toNat ≤ b.contents.length) : bufferArrayDrain b array n = (b, array, false) := by
  rw [contents_length] at short
  exact arrayDrain_short array n short

theorem bufferByteDrain_valid {b : Buffer} (h : b.Valid) : (bufferByteDrain b).1.Valid :=
  byteDrain_valid h

theorem bufferArrayDrain_valid {b : Buffer} (h : b.Valid) (arr : List Byte) (n : Byte) :
    (bufferArrayDrain b arr n).1.Valid := by
  by_cases held : n.toNat ≤ b.contents.length
  · obtain ⟨b', he, hv, -⟩ := bufferArrayDrain_held h arr n held
    rw [he]; exact hv
  · rw [bufferArrayDrain_short arr n held]; exact h

theorem bufferByteDrain_suffix {b : Buffer} (h : b.Valid) :
    (bufferByteDrain b).1.contents <:+ b.contents := by
  cases hc : b.contents with
  | nil => rw [bufferByteDrain_nil hc, hc]
  | cons x rest =>
    obtain ⟨b', he, -, hr⟩ := bufferByteDrain_cons h hc
    rw [he, hr]
    exact List.suffix_cons x rest

theorem bufferArrayDrain_suffix {b : Buffer} (h : b.Valid) (arr : List Byte) (n : Byte) :
    (bufferArrayDrain b arr n).1.contents <:+ b.contents := by
  by_cases held : n.toNat ≤ b.contents.length
  · obtain ⟨b', he, -, hr⟩ := bufferArrayDrain_held h arr n held
    rw [he, hr]
    exact List.drop_suffix _ _
  · rw [bufferArrayDrain_short arr n held]

end LedServer.AvrRing
