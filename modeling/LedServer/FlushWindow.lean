import LedServer.AvrBuffer
import LedServer.DisplayBits
import LedServer.Machine

set_option autoImplicit false

/-!
# The moving window of `flush.c`

Columns come in at one end of `shift_data`, a tick shows the first 64 of those
held and drops one. So the dumps of a run are the windows of the accepted
columns, one after the other.
-/
namespace LedServer.Avr
open AvrRing PortProgram Machine

/-- `flush.c` with the frames dumped so far. -/
structure Shown where
  flush : Flush
  stableData : List Byte
  dumps : List Frame

inductive ShiftEvent
  | data (arr : List Byte) (arrSize : Byte)
  | display
  | drainStart
  | drainStop
deriving DecidableEq

/-- `flush_shift_display` dumps before it shifts, if it does either. -/
def shiftStep (s : Shown) : ShiftEvent → Shown
  | .data arr arrSize => { s with flush := (flushShiftData s.flush arr arrSize).1 }
  | .display =>
    { s with
      flush := flushShiftDisplay s.flush
      dumps := s.dumps ++ if bufferSize s.flush.shiftData < minDataSize then []
        else [dumpFrame s.flush.shiftData s.stableData 1] }
  | .drainStart => { s with flush := flushShiftDrainStart s.flush }
  | .drainStop => { s with flush := flushShiftDrainStop s.flush }

def shiftStart (stableData : List Byte) : Shown := ⟨flushInit, stableData, []⟩

/-- No drain starts and no call fills `shift_data` to its last cell. -/
def BelowCapacity (s : Shown) : ShiftEvent → Prop
  | .data _ arrSize => s.flush.shiftData.count + arrSize.toNat ≠ 255
  | .display => True
  | .drainStart => False
  | .drainStop => True

instance (s : Shown) : (e : ShiftEvent) → Decidable (BelowCapacity s e)
  | .data _ arrSize => inferInstanceAs (Decidable (s.flush.shiftData.count + arrSize.toNat ≠ 255))
  | .display => .isTrue trivial
  | .drainStart => .isFalse id
  | .drainStop => .isTrue trivial

/-- The 64 columns from the `k`-th on, half of them a display. -/
def windowAt (columns : List Byte) (k : ℕ) : Frame :=
  ⟨(columns.drop k).take 32, (columns.drop (k + 32)).take 32⟩

/-- What is held is what was accepted but for one column a dump. -/
structure Window (s : Shown) : Prop where
  drain : s.flush.drain = false
  valid : s.flush.shiftData.Valid
  dumped : s.dumps.length ≤ s.flush.columns.length
  contents : s.flush.shiftData.contents = s.flush.columns.drop s.dumps.length
  frames : ∀ k (hk : k < s.dumps.length),
    k + 64 ≤ s.flush.columns.length ∧ s.dumps[k] = windowAt s.flush.columns k

theorem shiftStart_window (stableData : List Byte) : Window (shiftStart stableData) where
  drain := rfl
  valid := bufferInit_valid
  dumped := le_refl 0
  contents := ringInit_contents 255
  frames := fun k hk => absurd hk (Nat.not_lt_zero k)

/-! ### One step -/

/-- In shift mode the frame is the first 64 bytes held. -/
theorem frame_shift {b : Buffer} (h : b.Valid) (stableData : List Byte) (held : 64 ≤ b.count) :
    dumpFrame b stableData 1 = windowAt b.contents 0 := by
  have hget : ∀ i < 64, getData b stableData 1 (BitVec.ofNat 8 i) = b.contents.getD i 0 := by
    intro i hi
    have hi8 : (BitVec.ofNat 8 i).toNat = i := by bv_omega
    have hbyte : bufferByteGet b (BitVec.ofNat 8 i) = b.contents[i]? := by
      rw [bufferByteGet, byteGet_eq h, hi8]
    rw [getData, if_pos (by decide), hbyte, List.getD_eq_getElem?_getD]
  rw [frame_eq hget (by rwa [contents_length])]
  rfl

theorem windowAt_append {columns : List Byte} {k : ℕ} (hk : k + 64 ≤ columns.length)
    (more : List Byte) : windowAt (columns ++ more) k = windowAt columns k := by
  unfold windowAt
  rw [List.drop_append_of_le_length (by omega), List.drop_append_of_le_length (by omega),
    List.take_append_of_le_length (by rw [List.length_drop]; omega),
    List.take_append_of_le_length (by rw [List.length_drop]; omega)]

theorem windowAt_drop (columns : List Byte) (k : ℕ) :
    windowAt (columns.drop k) 0 = windowAt columns k := by
  simp only [windowAt, List.drop_drop, Nat.add_zero, Nat.zero_add]

theorem Window.display_short {s : Shown} (short : s.flush.shiftData.count < 64) :
    shiftStep s .display = s := by
  have hshort : bufferSize s.flush.shiftData < minDataSize := short
  simp only [shiftStep, flushShiftDisplay, if_pos hshort, List.append_nil]

theorem Window.length {s : Shown} (h : Window s) :
    s.flush.shiftData.count = s.flush.columns.length - s.dumps.length := by
  rw [← contents_length, h.contents, List.length_drop]

theorem Window.data {s : Shown} (h : Window s) (arr : List Byte) {arrSize : Byte}
    (below : BelowCapacity s (.data arr arrSize)) : Window (shiftStep s (.data arr arrSize)) := by
  have hdrain : ¬ s.flush.drain = true := by rw [h.drain]; decide
  rcases Nat.lt_or_gt_of_ne below with hroom | hfull
  · obtain ⟨b', hfill, hvalid, hcontents⟩ := bufferArrayFill_fits h.valid arr hroom
    simp only [shiftStep, flushShiftData, if_neg hdrain, hfill, if_true]
    refine ⟨h.drain, hvalid, ?_, ?_, fun k hk => ?_⟩
    · exact h.dumped.trans (by simp only [List.length_append]; omega)
    · simp only [hcontents, h.contents, List.drop_append_of_le_length h.dumped]
    · obtain ⟨hle, hframe⟩ := h.frames k hk
      refine ⟨by simp only [List.length_append]; omega, ?_⟩
      exact hframe.trans (windowAt_append hle _).symm
  · have hfill := bufferArrayFill_refused h.valid arr hfull
    simp only [shiftStep, flushShiftData, if_neg hdrain, hfill, Bool.false_eq_true, if_false,
      List.append_nil]
    exact ⟨h.drain, h.valid, h.dumped, h.contents, h.frames⟩

theorem Window.display {s : Shown} (h : Window s) : Window (shiftStep s .display) := by
  by_cases short : s.flush.shiftData.count < 64
  · rw [Window.display_short short]
    exact h
  · have held : 64 ≤ s.flush.shiftData.count := Nat.le_of_not_lt short
    have hlength := h.length
    have hlong : ¬ bufferSize s.flush.shiftData < minDataSize := short
    have hframe : dumpFrame s.flush.shiftData s.stableData 1 =
        windowAt s.flush.columns s.dumps.length := by
      rw [frame_shift h.valid s.stableData held, h.contents, windowAt_drop]
    obtain ⟨b', hdrained, hvalid, hcontents⟩ := bufferByteDrain_cons h.valid
      (h.contents.trans (List.drop_eq_getElem_cons (by omega)))
    simp only [shiftStep, flushShiftDisplay, if_neg hlong, hdrained, hframe]
    refine ⟨h.drain, hvalid, ?_, ?_, fun k hk => ?_⟩
    · simp only [List.length_append, List.length_singleton]
      omega
    · simpa only [List.length_append, List.length_singleton] using hcontents
    · simp only [List.length_append, List.length_singleton] at hk
      rcases Nat.lt_succ_iff_lt_or_eq.mp hk with hold | rfl
      · rw [List.getElem_append_left hold]
        exact h.frames k hold
      · rw [List.getElem_append_right (le_refl _)]
        simp only [Nat.sub_self, List.getElem_singleton]
        exact ⟨by omega, trivial⟩

theorem Window.step (s : Shown) (e : ShiftEvent) (h : Window s) (below : BelowCapacity s e) :
    Window (shiftStep s e) := by
  cases e with
  | data arr arrSize => exact h.data arr below
  | display => exact h.display
  | drainStart => exact absurd below id
  | drainStop => exact ⟨rfl, h.valid, h.dumped, h.contents, h.frames⟩

/-! ### A run -/

/-- The pins get the window that is due: `dumps.length` frames went before it. -/
theorem Window.due_delivers {s : Shown} (h : Window s) (held : 64 ≤ s.flush.shiftData.count)
    (port : Byte) :
    let due := windowAt s.flush.columns s.dumps.length
    left.latched port (dump s.flush.shiftData s.stableData 1) =
        dataHeader ++ due.left.flatMap columnBits ∧
      right.latched port (dump s.flush.shiftData s.stableData 1) =
        dataHeader ++ due.right.flatMap columnBits := by
  intro due
  have hframe : dumpFrame s.flush.shiftData s.stableData 1 = due := by
    rw [frame_shift h.valid s.stableData held, h.contents, windowAt_drop]
  rw [dump_left, dump_right, hframe]
  exact ⟨rfl, rfl⟩

/-- Over every run: the `k`-th dump is the `k`-th window of the accepted
columns, and a tick with less than a window held changes nothing. -/
theorem dumps_follow_columns (stableData : List Byte) {es : List ShiftEvent}
    (h : Along shiftStep BelowCapacity (shiftStart stableData) es) :
    let s := run shiftStep (shiftStart stableData) es
    (∀ k (hk : k < s.dumps.length), k + 64 ≤ s.flush.columns.length ∧
      s.dumps[k].left = (s.flush.columns.drop k).take 32 ∧
      s.dumps[k].right = (s.flush.columns.drop (k + 32)).take 32) ∧
    (bufferSize s.flush.shiftData < 64 → shiftStep s .display = s) := by
  intro s
  have hwindow : Window s := run_invariant Window.step (shiftStart_window stableData) h
  refine ⟨fun k hk => ?_, Window.display_short⟩
  obtain ⟨hle, hframe⟩ := hwindow.frames k hk
  exact ⟨hle, by rw [hframe]; rfl, by rw [hframe]; rfl⟩

/-- Two columns more than a window, a tick too many, one column more. -/
def feed : List ShiftEvent :=
  [.data ((List.range 66).map (BitVec.ofNat 8)) 66, .display, .display, .display, .display,
    .data [66] 1, .display]

theorem dumps_follow_columns_feed :
    let s := run shiftStep (shiftStart []) feed
    ∃ hk : 3 < s.dumps.length, 3 + 64 ≤ s.flush.columns.length ∧
      s.dumps[3].left = (s.flush.columns.drop 3).take 32 ∧
      s.dumps[3].right = (s.flush.columns.drop 35).take 32 := by
  have hbelow : Along shiftStep BelowCapacity (shiftStart []) feed := by decide +kernel
  have hdumps : 3 < (run shiftStep (shiftStart []) feed).dumps.length := by decide +kernel
  exact ⟨hdumps, (dumps_follow_columns [] hbelow).1 3 hdumps⟩

end LedServer.Avr
