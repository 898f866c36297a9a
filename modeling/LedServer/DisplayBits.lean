import LedServer.AvrDisplay

set_option autoImplicit false

/-!
# What the two display controllers latch

Each controller takes its data pin on the rising edges of its own clock. The
programs of `display.c` deliver their bits to one controller and leave the pins
of the other alone.
-/
namespace LedServer.Avr
open AvrRing PortProgram

/-- A rising edge of `clk` while `cs` is low. -/
def Display.latch (d : Display) (before after : Byte) : Option Bool :=
  if !high before d.clk && high after d.clk && !high after d.cs then some (high after d.data)
  else none

/-- What the controller has latched when the program is through. -/
def Display.latched (d : Display) (port : Byte) (p : Program Byte) : List Bool :=
  watch d.latch port (p port)

def Display.Selected (d : Display) (port : Byte) : Prop := high port d.cs = false

/-- The three pins of a display are three pins. -/
structure Display.Wired (d : Display) : Prop where
  clk : d.clk ≠ 0#8
  data : d.data ≠ 0#8
  cs_clk : d.cs &&& d.clk = 0#8
  data_clk : d.data &&& d.clk = 0#8
  data_cs : d.data &&& d.cs = 0#8

/-- No pin of `e` is the chip select or the clock of `d`. -/
structure Display.Beside (d e : Display) : Prop where
  cs : e.cs &&& d.cs = 0#8 ∧ e.cs &&& d.clk = 0#8
  clk : e.clk &&& d.cs = 0#8 ∧ e.clk &&& d.clk = 0#8
  data : e.data &&& d.cs = 0#8 ∧ e.data &&& d.clk = 0#8

theorem left_wired : left.Wired := ⟨by decide, by decide, by decide, by decide, by decide⟩

theorem right_wired : right.Wired := ⟨by decide, by decide, by decide, by decide, by decide⟩

theorem left_beside_right : left.Beside right := ⟨by decide, by decide, by decide⟩

theorem right_beside_left : right.Beside left := ⟨by decide, by decide, by decide⟩

/-! ### Its own bits -/

section Own

variable {d : Display}

theorem latch_none {before after : Byte} (h : high after d.clk = high before d.clk) :
    d.latch before after = none := by
  unfold Display.latch
  rw [h]
  cases high before d.clk <;> rfl

/-- A write that leaves the clock alone is no edge. -/
theorem modify_bits {f : Byte → Byte} {P Q : Byte → Prop}
    (hclk : ∀ port, high (f port) d.clk = high port d.clk) (hq : ∀ port, P port → Q (f port)) :
    Latches d.latch P (modify f) [] Q := by
  refine latches_modify (fun port _ => ?_) hq
  rw [latch_none (hclk port)]
  rfl

theorem csActivate_bits (h : d.Wired) (P : Byte → Prop) :
    Latches d.latch P (csActivate d.cs) [] d.Selected := by
  have hset : Latches d.latch P (modify (· ||| d.cs)) [] (fun _ => True) :=
    modify_bits (fun port => high_set_apart port h.cs_clk) fun _ _ => trivial
  have hclear : Latches d.latch (fun _ => True) (modify (· &&& ~~~d.cs)) [] d.Selected :=
    modify_bits (fun port => high_clear_apart port h.cs_clk) fun port _ => high_clear port d.cs
  exact hset.seq hclear

theorem csDeactivate_bits (h : d.Wired) (P : Byte → Prop) :
    Latches d.latch P (csDeactivate d.cs) [] (fun _ => True) :=
  modify_bits (fun port => high_set_apart port h.cs_clk) fun _ _ => trivial

/-- Clock down, data, clock up: only the last write is an edge. -/
theorem flushBit_bits (h : d.Wired) (bit : Byte) :
    Latches d.latch d.Selected (flushBit d.clk d.data bit) [bit != 0] d.Selected := by
  have hclk_cs : d.clk &&& d.cs = 0#8 := by rw [BitVec.and_comm, h.cs_clk]
  have hclk_data : d.clk &&& d.data = 0#8 := by rw [BitVec.and_comm, h.data_clk]
  -- the port after the first write, and after the second
  let low : Byte → Prop := fun port => d.Selected port ∧ high port d.clk = false
  let ready : Byte → Prop := fun port => low port ∧ high port d.data = (bit != 0)
  have hlow : Latches d.latch d.Selected (modify (· &&& ~~~d.clk)) [] low := by
    refine latches_modify (fun port _ => ?_) fun port hport => ⟨?_, high_clear port d.clk⟩
    · simp [Display.latch]
    · exact (high_clear_apart port hclk_cs).trans hport
  have hdata : Latches d.latch low
      (if bit ≠ 0 then modify (· ||| d.data) else modify (· &&& ~~~d.data)) [] ready := by
    split_ifs with hbit
    · refine modify_bits (fun port => high_set_apart port h.data_clk) fun port hport =>
        ⟨⟨?_, ?_⟩, ?_⟩
      · exact (high_set_apart port h.data_cs).trans hport.1
      · exact (high_set_apart port h.data_clk).trans hport.2
      · rw [high_set port h.data, bne_iff_ne.mpr hbit]
    · refine modify_bits (fun port => high_clear_apart port h.data_clk) fun port hport =>
        ⟨⟨?_, ?_⟩, ?_⟩
      · exact (high_clear_apart port h.data_cs).trans hport.1
      · exact (high_clear_apart port h.data_clk).trans hport.2
      · rw [high_clear port, not_not.mp hbit]
        rfl
  have hrise : Latches d.latch ready (modify (· ||| d.clk)) [bit != 0] d.Selected := by
    refine latches_modify (fun port hport => ?_) fun port hport => ?_
    · obtain ⟨⟨hcs, hclk⟩, hbit⟩ := hport
      have hafter : high (port ||| d.clk) d.cs = false := (high_set_apart port hclk_cs).trans hcs
      have hpin : high (port ||| d.clk) d.data = (bit != 0) :=
        (high_set_apart port hclk_data).trans hbit
      rw [Display.latch, hclk, high_set port h.clk, hafter, hpin]
      rfl
    · exact (high_set_apart port hclk_cs).trans hport.1.1
  exact hlow.seq (hdata.seq hrise)

theorem flushMasked_bits (h : d.Wired) (byte : Byte) (masks : List Byte) :
    Latches d.latch d.Selected (flushMasked d.clk d.data byte masks)
      (masks.map fun mask => byte &&& mask != 0) d.Selected := by
  rw [List.map_eq_flatMap]
  exact Latches.each masks fun mask _ => flushBit_bits h (byte &&& mask)

theorem flushZeroAddress_bits (h : d.Wired) :
    Latches d.latch d.Selected (flushZeroAddress d.clk d.data) (List.replicate 7 false)
      d.Selected :=
  Latches.each (List.range 7) fun _ _ => flushBit_bits h 0

/-- The nine bits of a command, high bit first. -/
def commandBits (cmd : Byte) : List Bool := (List.range 8).map cmd.getMsbD ++ [false]

theorem flushCmd_bits (h : d.Wired) (cmd : Byte) :
    Latches d.latch d.Selected (flushCmd d.clk d.data cmd) (commandBits cmd) d.Selected := by
  have hmasks : ((masksDown ((1 : Byte) <<< 7) 8).map fun mask => cmd &&& mask != 0) =
      (List.range 8).map cmd.getMsbD := by
    revert cmd
    decide +kernel
  rw [commandBits, ← hmasks]
  exact (flushMasked_bits h cmd _).seq (flushBit_bits h 0)

/-- The eight bits of a column, low bit first. -/
def columnBits (column : Byte) : List Bool := (List.range 8).map column.getLsbD

theorem displayDataColumn_bits (h : d.Wired) (column : Byte) :
    Latches d.latch d.Selected (displayDataColumn d column) (columnBits column) d.Selected := by
  let bits : Byte → List Bool := fun nibble =>
    (masksUp ((1 : Byte) <<< 0) 4).map fun mask => nibble &&& mask != 0
  have hnibbles : bits (column &&& 0xF) ++ bits ((column &&& 0xF0) >>> 4) = columnBits column := by
    revert column
    decide +kernel
  rw [← hnibbles]
  exact (flushMasked_bits h _ _).seq (flushMasked_bits h _ _)

/-- What comes before the columns: the prefix of a write and the address zero. -/
def dataHeader : List Bool := [true, false, true] ++ List.replicate 7 false

theorem displayDataStart_bits (h : d.Wired) (P : Byte → Prop) :
    Latches d.latch P (displayDataStart d) dataHeader d.Selected :=
  (csActivate_bits h P).seq ((flushMasked_bits h _ _).seq (flushZeroAddress_bits h))

/-- The prefix of a command. -/
def commandHeader : List Bool := [true, false, false]

theorem displayBrightness_bits (h : d.Wired) (P : Byte → Prop) (value : Byte) :
    Latches d.latch P (displayBrightness d value)
      (commandHeader ++ commandBits (cmdBrightnessMask ||| (value &&& 0xF))) (fun _ => True) := by
  have hend := (flushCmd_bits h (cmdBrightnessMask ||| (value &&& 0xF))).seq
    (csDeactivate_bits h d.Selected)
  rw [List.append_nil] at hend
  exact (csActivate_bits h P).seq ((flushMasked_bits h _ _).seq hend)

/-- The commands of `start`, one after the other. -/
def startBits : List Bool := commandHeader ++
  [cmdDisable, cmdNmos8com, cmdEnable, cmdLedOn, cmdBrightnessMask ||| 0xF].flatMap commandBits

theorem displayStart_bits (h : d.Wired) (P : Byte → Prop) :
    Latches d.latch P (displayStart d.cs d.clk d.data) startBits (fun _ => True) := by
  have hend := (Latches.each
    [cmdDisable, cmdNmos8com, cmdEnable, cmdLedOn, cmdBrightnessMask ||| 0xF]
    fun cmd _ => flushCmd_bits h cmd).seq (csDeactivate_bits h d.Selected)
  rw [List.append_nil] at hend
  exact (csActivate_bits h P).seq ((flushMasked_bits h _ _).seq hend)

end Own

/-! ### The bits of the other -/

section Other

variable {d e : Display}

/-- The pins that decide whether the controller latches. -/
def Display.pins (d : Display) (port : Byte) : Bool × Bool := (high port d.cs, high port d.clk)

theorem latch_pins (before after : Byte) (h : d.pins after = d.pins before) :
    d.latch before after = none := latch_none (congrArg Prod.snd h)

theorem set_leaves {mask : Byte} (h : mask &&& d.cs = 0#8 ∧ mask &&& d.clk = 0#8) :
    Leaves d.pins (modify (· ||| mask)) :=
  leaves_modify fun port => Prod.ext (high_set_apart port h.1) (high_set_apart port h.2)

theorem clear_leaves {mask : Byte} (h : mask &&& d.cs = 0#8 ∧ mask &&& d.clk = 0#8) :
    Leaves d.pins (modify (· &&& ~~~mask)) :=
  leaves_modify fun port => Prod.ext (high_clear_apart port h.1) (high_clear_apart port h.2)

theorem csActivate_leaves (h : d.Beside e) : Leaves d.pins (csActivate e.cs) :=
  (set_leaves h.cs).seq (clear_leaves h.cs)

theorem csDeactivate_leaves (h : d.Beside e) : Leaves d.pins (csDeactivate e.cs) := set_leaves h.cs

theorem flushBit_leaves (h : d.Beside e) (bit : Byte) :
    Leaves d.pins (flushBit e.clk e.data bit) := by
  refine (clear_leaves h.clk).seq (Leaves.seq ?_ (set_leaves h.clk))
  split_ifs
  · exact set_leaves h.data
  · exact clear_leaves h.data

theorem flushMasked_leaves (h : d.Beside e) (byte : Byte) (masks : List Byte) :
    Leaves d.pins (flushMasked e.clk e.data byte masks) :=
  Leaves.each (fun mask => flushBit_leaves h (byte &&& mask)) masks

theorem flushCmd_leaves (h : d.Beside e) (cmd : Byte) :
    Leaves d.pins (flushCmd e.clk e.data cmd) :=
  (flushMasked_leaves h cmd _).seq (flushBit_leaves h 0)

theorem displayStart_leaves (h : d.Beside e) : Leaves d.pins (displayStart e.cs e.clk e.data) :=
  (csActivate_leaves h).seq <| (flushMasked_leaves h _ _).seq <|
    (Leaves.each (flushCmd_leaves h) _).seq (csDeactivate_leaves h)

theorem displayBrightness_leaves (h : d.Beside e) (value : Byte) :
    Leaves d.pins (displayBrightness e value) :=
  (csActivate_leaves h).seq <| (flushMasked_leaves h _ _).seq <|
    (flushCmd_leaves h _).seq (csDeactivate_leaves h)

theorem displayDataStart_leaves (h : d.Beside e) : Leaves d.pins (displayDataStart e) :=
  (csActivate_leaves h).seq <| (flushMasked_leaves h _ _).seq <|
    Leaves.each (fun _ => flushBit_leaves h 0) _

theorem displayDataColumn_leaves (h : d.Beside e) (column : Byte) :
    Leaves d.pins (displayDataColumn e column) :=
  (flushMasked_leaves h _ _).seq (flushMasked_leaves h _ _)

/-- While the program of the other runs the controller stays selected. -/
theorem selected_latches {p : Program Byte} (h : Leaves d.pins p) :
    Latches d.latch d.Selected p [] d.Selected := h.latches latch_pins fun pins => pins.1 = false

theorem quiet_latches {p : Program Byte} (h : Leaves d.pins p) :
    Latches d.latch (fun _ => True) p [] (fun _ => True) := h.latches latch_pins fun _ => True

end Other

/-! ### Brightness and the start -/

/-- The same command for each display, or none. -/
theorem flushBrightness_bits (bNess : Byte) {d : Display} (hd : d = left ∨ d = right) :
    Latches d.latch (fun _ => True) (flushBrightnessWrites bNess)
      (if bNess > flushBrightnessMax then []
        else commandHeader ++ commandBits (cmdBrightnessMask ||| (bNess &&& 0xF)))
      (fun _ => True) := by
  unfold flushBrightnessWrites
  split_ifs
  · exact fun _ _ => ⟨rfl, trivial⟩
  · rcases hd with rfl | rfl
    · have hsend := (displayBrightness_bits left_wired (fun _ => True) bNess).seq
        (quiet_latches (displayBrightness_leaves left_beside_right bNess))
      rwa [List.append_nil] at hsend
    · exact (quiet_latches (displayBrightness_leaves right_beside_left bNess)).seq
        (displayBrightness_bits right_wired (fun _ => True) bNess)

/-- After `flush_init` both displays have got every command, at any value of the
port before. -/
theorem flushInit_delivers (direction port : Byte) {d : Display} (hd : d = left ∨ d = right) :
    d.latched port (flushInitWrites direction) =
      startBits ++ (commandHeader ++ commandBits cmdBrightnessMask) := by
  have hbrightness := flushBrightness_bits flushBrightnessMin hd
  rcases hd with rfl | rfl
  · exact ((displayStart_bits left_wired fun _ => True).seq
      ((quiet_latches (displayStart_leaves left_beside_right)).seq hbrightness)).eq trivial
  · exact ((quiet_latches (displayStart_leaves right_beside_left)).seq
      ((displayStart_bits right_wired fun _ => True).seq hbrightness)).eq trivial

/-! ### The dump -/

/-- The columns handed to the two displays. -/
structure Frame where
  left : List Byte
  right : List Byte
deriving DecidableEq

def dumpFrame (shiftData : Buffer) (stableData : List Byte) (shiftMode : Byte) : Frame where
  left := (List.range matrixSize).map fun i =>
    getData shiftData stableData shiftMode (BitVec.ofNat 8 i)
  right := (List.range matrixSize).map fun i =>
    getData shiftData stableData shiftMode (BitVec.ofNat 8 (i + matrixSize))

theorem dump_left (shiftData : Buffer) (stableData : List Byte) (shiftMode port : Byte) :
    left.latched port (dump shiftData stableData shiftMode) =
      dataHeader ++ (dumpFrame shiftData stableData shiftMode).left.flatMap columnBits := by
  have hcolumns := Latches.each (List.range matrixSize) fun i _ =>
    (displayDataColumn_bits left_wired
      (getData shiftData stableData shiftMode (BitVec.ofNat 8 i))).seq
    (selected_latches (displayDataColumn_leaves left_beside_right
      (getData shiftData stableData shiftMode (BitVec.ofNat 8 (i + matrixSize)))))
  have hstop := (csDeactivate_bits left_wired left.Selected).seq
    (quiet_latches (csDeactivate_leaves left_beside_right))
  have hdump := (displayDataStart_bits left_wired fun _ => True).seq <|
    (selected_latches (displayDataStart_leaves left_beside_right)).seq (hcolumns.seq hstop)
  refine (hdump.eq trivial).trans ?_
  simp [dumpFrame, List.flatMap_map]

theorem dump_right (shiftData : Buffer) (stableData : List Byte) (shiftMode port : Byte) :
    right.latched port (dump shiftData stableData shiftMode) =
      dataHeader ++ (dumpFrame shiftData stableData shiftMode).right.flatMap columnBits := by
  have hcolumns := Latches.each (List.range matrixSize) fun i _ =>
    (selected_latches (displayDataColumn_leaves right_beside_left
      (getData shiftData stableData shiftMode (BitVec.ofNat 8 i)))).seq
    (displayDataColumn_bits right_wired
      (getData shiftData stableData shiftMode (BitVec.ofNat 8 (i + matrixSize))))
  have hstop := (selected_latches (csDeactivate_leaves right_beside_left)).seq
    (csDeactivate_bits right_wired right.Selected)
  have hdump := (quiet_latches (displayDataStart_leaves right_beside_left)).seq <|
    (displayDataStart_bits right_wired fun _ => True).seq (hcolumns.seq hstop)
  refine (hdump.eq trivial).trans ?_
  simp [dumpFrame, List.flatMap_map]

theorem map_getD_range (columns : List Byte) (k n : ℕ) (h : k + n ≤ columns.length) :
    (List.range n).map (fun i => columns.getD (i + k) 0) = (columns.drop k).take n := by
  refine List.ext_getElem ?_ fun i hi _ => ?_
  · simp only [List.length_map, List.length_range, List.length_take, List.length_drop]
    omega
  · have hlt : i + k < columns.length := by
      simp only [List.length_map, List.length_range] at hi
      omega
    simp [List.getElem?_eq_getElem hlt, Nat.add_comm k i]

/-- Both modes hand out cells of one list, cut between the displays. -/
theorem frame_eq {shiftData : Buffer} {stableData columns : List Byte} {shiftMode : Byte}
    (hget : ∀ i < 64, getData shiftData stableData shiftMode (BitVec.ofNat 8 i) =
      columns.getD i 0) (h : 64 ≤ columns.length) :
    dumpFrame shiftData stableData shiftMode = ⟨columns.take 32, (columns.drop 32).take 32⟩ := by
  have hleft := map_getD_range columns 0 32 (by omega)
  have hright := map_getD_range columns 32 32 (by omega)
  rw [List.drop_zero] at hleft
  rw [← hleft, ← hright]
  unfold dumpFrame matrixSize
  congr 1 <;> refine List.map_congr_left fun i hi => ?_
  · exact hget i (by have := List.mem_range.mp hi; omega)
  · exact hget (i + 32) (by have := List.mem_range.mp hi; omega)

theorem frame_stable (shiftData : Buffer) {columns : List Byte} (h : columns.length = 64) :
    dumpFrame shiftData columns 0 = ⟨columns.take 32, columns.drop 32⟩ := by
  have hget : ∀ i < 64, getData shiftData columns 0 (BitVec.ofNat 8 i) = columns.getD i 0 := by
    intro i hi
    have hi8 : (BitVec.ofNat 8 i).toNat = i := by bv_omega
    rw [getData, if_neg (by decide), hi8]
  rw [frame_eq hget h.ge, List.take_of_length_le (l := columns.drop 32)]
  rw [List.length_drop]
  omega

/-- `flush_stable_display` shows what `buf` holds, dark behind it. -/
theorem flushStableDisplay_fst (shiftData : Buffer) {buf : Buf} (h : buf.Valid) :
    (flushStableDisplay shiftData buf).1 = buf.contents ++ List.replicate (64 - buf.count) 0 := by
  have hle : buf.count ≤ 64 := count_le h
  have h64 : minDataSize.toNat = 64 := rfl
  refine List.ext_getElem ?_ fun i hi _ => ?_
  · simp only [flushStableDisplay, List.length_map, List.length_range, List.length_append,
      contents_length, List.length_replicate, h64]
    omega
  · have hi64 : i < 64 := by simpa [flushStableDisplay, h64] using hi
    have hi8 : (BitVec.ofNat 8 i).toNat = i := by bv_omega
    simp only [flushStableDisplay, List.getElem_map, List.getElem_range, bufByteGet, byteGet_eq h,
      hi8]
    by_cases hheld : i < buf.count
    · rw [List.getElem_append_left (by rwa [contents_length]), List.getElem?_eq_getElem]
      rfl
    · rw [List.getElem_append_right (by rw [contents_length]; omega), List.getElem_replicate,
        List.getElem?_eq_none (by rw [contents_length]; omega)]
      rfl

theorem flushStableDisplay_delivers (shiftData : Buffer) {buf : Buf} (h : buf.Valid)
    (port : Byte) :
    let shown := buf.contents ++ List.replicate (64 - buf.count) 0
    left.latched port (flushStableDisplay shiftData buf).2 =
        dataHeader ++ (shown.take 32).flatMap columnBits ∧
      right.latched port (flushStableDisplay shiftData buf).2 =
        dataHeader ++ (shown.drop 32).flatMap columnBits := by
  intro shown
  have hle : buf.count ≤ 64 := count_le h
  have hlength : shown.length = 64 := by
    simp only [shown, List.length_append, contents_length, List.length_replicate]
    omega
  have hframe := frame_stable shiftData hlength
  have hdump : (flushStableDisplay shiftData buf).2 = dump shiftData shown 0 :=
    congrArg (dump shiftData · 0) (flushStableDisplay_fst shiftData h)
  rw [hdump, dump_left, dump_right, hframe]
  exact ⟨rfl, rfl⟩

/-- In both modes, for every picture and every value of the port before it. -/
theorem dump_delivers (shiftData : Buffer) (stableData : List Byte) (shiftMode port : Byte) :
    (left.latched port (dump shiftData stableData shiftMode) = dataHeader ++
        (dumpFrame shiftData stableData shiftMode).left.flatMap columnBits ∧
      right.latched port (dump shiftData stableData shiftMode) = dataHeader ++
        (dumpFrame shiftData stableData shiftMode).right.flatMap columnBits) ∧
    ∀ columns : List Byte, columns.length = 64 →
      left.latched port (dump shiftData columns 0) =
          dataHeader ++ (columns.take 32).flatMap columnBits ∧
        right.latched port (dump shiftData columns 0) =
          dataHeader ++ (columns.drop 32).flatMap columnBits := by
  refine ⟨⟨dump_left .., dump_right ..⟩, fun columns hlength => ?_⟩
  have hframe := frame_stable shiftData hlength
  exact ⟨by rw [dump_left, hframe], by rw [dump_right, hframe]⟩

end LedServer.Avr
