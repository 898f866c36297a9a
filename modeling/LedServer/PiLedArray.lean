import LedServer.AvrDecode
import LedServer.PiHandleStep

set_option autoImplicit false

/-!
# The LED_ARRAYs of a matrix

`info_push` cuts a matrix with two iterators it advances by hand. What it pushes
is the whole matrix, in pieces that fit the other machine's buffer.
-/
namespace LedServer.Pi
open Mcu

/-- The first loop of `info_push`: the pieces of `LED_ARRAY_SIZE` between `start`
and `finish`, and what `start` points to after it. -/
def pushFull (h : Handle) (start : Matrix) : ℕ → Handle × Matrix
  | 0 => (h, start)
  | len + 1 =>
    pushFull (h.pushNext msgIdLedArray (start.take ledArraySize)) (start.drop ledArraySize) len

/-- Both loops of `info_push`. -/
def pushMatrix (h : Handle) (matrix : Matrix) : Handle :=
  let (h, start) := pushFull h matrix (matrix.length / ledArraySize)
  let len := matrix.length % ledArraySize
  if len > 0 then h.pushNext msgIdLedArray (start.take len) else h

/-- The pieces of a given length a list begins with. -/
def fullPieces (matrix : Matrix) (len : ℕ) : List Matrix :=
  (List.range len).map fun i => (matrix.drop (ledArraySize * i)).take ledArraySize

theorem fullPieces_succ (matrix : Matrix) (len : ℕ) :
    fullPieces matrix (len + 1) =
      matrix.take ledArraySize :: fullPieces (matrix.drop ledArraySize) len := by
  unfold fullPieces
  rw [List.range_succ_eq_map, List.map_cons, List.map_map, Nat.mul_zero, List.drop_zero]
  refine congrArg _ (List.map_congr_left fun i _ => ?_)
  rw [Function.comp_apply, List.drop_drop, Nat.succ_eq_add_one, Nat.mul_add, Nat.mul_one,
    Nat.add_comm]

theorem fullPieces_flatten (matrix : Matrix) (len : ℕ) :
    (fullPieces matrix len).flatten = matrix.take (ledArraySize * len) := by
  induction len generalizing matrix with
  | zero => rfl
  | succ len ih =>
    rw [fullPieces_succ, List.flatten_cons, ih, Nat.mul_add, Nat.mul_one, Nat.add_comm,
      List.take_add]

theorem pushFull_eq (h : Handle) (start : Matrix) (len : ℕ) :
    pushFull h start len =
      ((fullPieces start len).foldl (fun h payload => h.pushNext msgIdLedArray payload) h,
        start.drop (ledArraySize * len)) := by
  induction len generalizing h start with
  | zero => rfl
  | succ len ih =>
    rw [pushFull, ih, fullPieces_succ, List.foldl_cons, List.drop_drop, Nat.mul_add, Nat.mul_one,
      Nat.add_comm]

/-- The second loop pushes what the first has left. -/
theorem pushMatrix_eq (h : Handle) (matrix : Matrix) :
    pushMatrix h matrix =
      (ledArrays matrix).foldl (fun h payload => h.pushNext msgIdLedArray payload) h := by
  have hrest : (matrix.drop (ledArraySize * (matrix.length / ledArraySize))).length =
      matrix.length % ledArraySize := by
    have hdiv := Nat.div_add_mod matrix.length ledArraySize
    rw [List.length_drop]
    omega
  have hall := List.take_of_length_le (le_of_eq hrest)
  unfold pushMatrix ledArrays
  rw [pushFull_eq]
  dsimp only
  rw [List.foldl_append, hall]
  split_ifs <;> rfl

theorem ledArrays_flatten (matrix : Matrix) : (ledArrays matrix).flatten = matrix := by
  have hfull := fullPieces_flatten matrix (matrix.length / ledArraySize)
  have hdiv := Nat.div_add_mod matrix.length ledArraySize
  unfold ledArrays
  rw [List.flatten_append]
  refine (congrArg (· ++ _) hfull).trans ?_
  split_ifs with hrest
  · rw [List.flatten_singleton, List.take_append_drop]
  · rw [List.flatten_nil, List.append_nil, List.take_of_length_le (by omega)]

theorem ledArrays_pos {matrix payload : Matrix} (h : payload ∈ ledArrays matrix) :
    1 ≤ payload.length := by
  have hdiv := Nat.div_add_mod matrix.length ledArraySize
  unfold ledArrays at h
  rcases List.mem_append.mp h with h | h
  · obtain ⟨i, hi, rfl⟩ := List.mem_map.mp h
    have hbound := Nat.mul_le_mul_left ledArraySize (List.mem_range.mp hi)
    rw [List.length_take, List.length_drop]
    unfold ledArraySize at *
    omega
  · split at h
    · rw [List.mem_singleton.mp h, List.length_drop]
      omega
    · cases h

/-- The messages a queue has grown by are LED_ARRAYs, what they carry comes to
the matrix, and each one's frame is right about its size and has room in
`in_buf`. -/
structure InArrays (before after : List (List Byte)) (matrix : Matrix)
    (pushed : List (Byte × Matrix)) : Prop where
  grown : after = before ++ pushed.map fun p => encodeJoin p.1 msgIdLedArray p.2
  whole : (pushed.map Prod.snd).flatten = matrix
  pos : ∀ p ∈ pushed, 1 ≤ p.2.length
  length_le : ∀ p ∈ pushed, p.2.length ≤ ledArraySize
  serial_ne : ∀ p ∈ pushed, p.1 ≠ serialIdToIgnore
  framed : ∀ p ∈ pushed, ∃ size : Byte,
    encodeWrap (encodeJoin p.1 msgIdLedArray p.2) =
      eyeCatch :: size :: encodeJoin p.1 msgIdLedArray p.2 ∧ size.toNat = p.2.length + 2
  fits : ∀ p ∈ pushed, p.2.length ≤ Avr.inSize

/-- The serials `mcu_id::get` gives to payload after payload. -/
def numberedArrays (serialId : Byte) : List Matrix → List (Byte × Matrix)
  | [] => []
  | payload :: payloads =>
    (mcuIdGet serialId, payload) :: numberedArrays (mcuIdGet serialId) payloads

theorem numberedArrays_snd (serialId : Byte) (payloads : List Matrix) :
    (numberedArrays serialId payloads).map Prod.snd = payloads := by
  induction payloads generalizing serialId with
  | nil => rfl
  | cons payload payloads ih => rw [numberedArrays, List.map_cons, ih]

theorem numberedArrays_ne {serialId : Byte} {payloads : List Matrix} {p : Byte × Matrix}
    (h : p ∈ numberedArrays serialId payloads) : p.1 ≠ serialIdToIgnore := by
  induction payloads generalizing serialId with
  | nil => exact absurd h List.not_mem_nil
  | cons payload payloads ih =>
    rcases List.mem_cons.mp h with rfl | h
    · exact mcuIdGet_ne serialId
    · exact ih h

theorem pushNext_numbered (payloads : List Matrix) (h : Handle) :
    (payloads.foldl (fun h payload => h.pushNext msgIdLedArray payload) h).toMcuQueue =
      h.toMcuQueue ++
        (numberedArrays h.serialId payloads).map fun p => encodeJoin p.1 msgIdLedArray p.2 := by
  induction payloads generalizing h with
  | nil => exact (List.append_nil _).symm
  | cons payload payloads ih =>
    rw [List.foldl_cons, ih]
    simp only [Handle.pushNext, Handle.push, numberedArrays, List.map_cons, List.append_assoc,
      List.singleton_append]

/-- The size of a message that carries no more than an LED_ARRAY may. -/
theorem wrap_size {serial : Byte} {payload : Matrix} (h : payload.length ≤ ledArraySize) :
    ∃ size : Byte, encodeWrap (encodeJoin serial msgIdLedArray payload) =
        eyeCatch :: size :: encodeJoin serial msgIdLedArray payload ∧
      size.toNat = payload.length + 2 := by
  have hlen : (encodeJoin serial msgIdLedArray payload).length = payload.length + 2 := rfl
  refine ⟨_, rfl, ?_⟩
  rw [hlen, BitVec.toNat_ofNat]
  unfold ledArraySize at h
  omega

theorem pushMatrix_carries (h : Handle) (matrix : Matrix) :
    ∃ pushed, InArrays h.toMcuQueue (pushMatrix h matrix).toMcuQueue matrix pushed := by
  have hmem : ∀ p ∈ numberedArrays h.serialId (ledArrays matrix), p.2 ∈ ledArrays matrix := by
    intro p hp
    rw [← numberedArrays_snd h.serialId (ledArrays matrix)]
    exact List.mem_map_of_mem hp
  have hroom : ledArraySize ≤ Avr.inSize := by decide
  refine ⟨numberedArrays h.serialId (ledArrays matrix), ?_, ?_, fun p hp => ?_, fun p hp => ?_,
    fun p hp => numberedArrays_ne hp, fun p hp => ?_, fun p hp => ?_⟩
  · rw [pushMatrix_eq, pushNext_numbered]
  · rw [numberedArrays_snd, ledArrays_flatten]
  · exact ledArrays_pos (hmem p hp)
  · exact ledArrays_length (hmem p hp)
  · exact wrap_size (ledArrays_length (hmem p hp))
  · exact (ledArrays_length (hmem p hp)).trans hroom

/-- `info_push` makes LED_ARRAYs of the matrix it has rendered. -/
theorem infoPush_matrix {h : Handle} (hs : h.suspend = false)
    (hroom : h.toMcuQueue.length < queueSizeLimit) :
    ∃ h' : Handle, h'.toMcuQueue = h.toMcuQueue ∧
      infoPush h = pushMatrix h' (pixelize h.firstByte (h.content.out.2 ++ [blank])).2 := by
  refine ⟨{ h with
    content := h.content.out.1
    firstByte := (pixelize h.firstByte (h.content.out.2 ++ [blank])).1 }, rfl, ?_⟩
  rw [pushMatrix_eq]
  refine if_neg ?_
  rw [hs]
  simp only [Bool.false_eq_true, false_or]
  omega

/-- Whatever the matrix, what is pushed for it in one go is the matrix in pieces
of 1 to `LED_ARRAY_SIZE` bytes, and `info_push` does that with what it renders. -/
theorem infoPush_carries (h : Handle) (hs : h.suspend = false)
    (hroom : h.toMcuQueue.length < queueSizeLimit) :
    (∃ pushed, InArrays h.toMcuQueue (infoPush h).toMcuQueue
        (pixelize h.firstByte (h.content.out.2 ++ [blank])).2 pushed) ∧
      ∀ matrix, ∃ pushed, InArrays h.toMcuQueue (pushMatrix h matrix).toMcuQueue matrix pushed := by
  refine ⟨?_, pushMatrix_carries h⟩
  obtain ⟨h', hqueue, he⟩ := infoPush_matrix hs hroom
  rw [he, ← hqueue]
  exact pushMatrix_carries h' _

theorem infoPush_carries_init :
    ∃ pushed, InArrays [] (infoPush (handleInit [] 0)).toMcuQueue
      (pixelize 0 ((contentInit []).out.2 ++ [blank])).2 pushed :=
  (infoPush_carries (handleInit [] 0) rfl (show 0 < queueSizeLimit by decide)).1

end LedServer.Pi
