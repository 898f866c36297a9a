import LedServer.AvrBuffer
import LedServer.AvrLink

set_option autoImplicit false

/-!
# What the link functions do to the outgoing stream

`write_buf` is a queue of whole frames: each goes in at once, and never so many
that the buffer is filled to capacity.
-/
namespace LedServer.Avr
open AvrRing

/-- The postponed slot is free, or keeps the frame of one reply. -/
def Held (l : Link) : Option Message → Prop
  | none => l.postponedSize = 0
  | some m => m.serial ≠ serialIdToIgnore ∧ m.payload.length ≤ 8 ∧
      l.postponedSize = BitVec.ofNat 8 m.frame.length ∧
      l.postponedMessage.take m.frame.length = m.frame

/-- The link after the messages `sent` have gone into `write_buf`, with `held`
in the slot. -/
structure Flows (l : Link) (sent : List Message) (held : Option Message) : Prop where
  readValid : l.readBuf.Valid
  writeValid : l.writeBuf.Valid
  room : l.writeBuf.count ≤ 241
  written : l.written = sent.map Message.frame
  small : ∀ m ∈ sent, m.payload.length ≤ 8
  slot : Held l held

/-- What a step of the main loop leaves alone, and the messages it appends. -/
structure Sends (l l' : Link) (out : List Message) : Prop where
  readBuf : l'.readBuf = l.readBuf
  spdr : l'.spdr = l.spdr
  loaded : l'.loaded = l.loaded
  contents : l'.writeBuf.contents = l.writeBuf.contents ++ out.flatMap Message.frame

theorem Sends.refl (l : Link) : Sends l l [] := ⟨rfl, rfl, rfl, by simp⟩

theorem Sends.trans {l₁ l₂ l₃ : Link} {out out' : List Message} (h : Sends l₁ l₂ out)
    (h' : Sends l₂ l₃ out') : Sends l₁ l₃ (out ++ out') where
  readBuf := h'.readBuf.trans h.readBuf
  spdr := h'.spdr.trans h.spdr
  loaded := h'.loaded.trans h.loaded
  contents := by rw [h'.contents, h.contents, List.flatMap_append, List.append_assoc]

theorem isWritable_iff {l : Link} (h : l.writeBuf.Valid) :
    isWritable l = true ↔ l.writeBuf.count ≤ 229 := by
  have hspace := bufferSpace_toNat h
  have hcount := buffer_count_le h
  have h26 : enoughSpace.toNat = 26 := rfl
  unfold isWritable spiWriteSpace
  rw [decide_eq_true_eq, ge_iff_le, BitVec.le_def, hspace]
  omega

/-- A frame written with room for it. -/
theorem spiWriteArray_flows {l : Link} {sent : List Message} {held : Option Message}
    (h : Flows l sent held) (hw : isWritable l = true) {m : Message} (hm : m.payload.length ≤ 8)
    {array : List Byte} {n : Byte} (hn : n = BitVec.ofNat 8 m.frame.length)
    (htake : array.take m.frame.length = m.frame) :
    Flows (spiWriteArray l array n) (sent ++ [m]) held ∧ Sends l (spiWriteArray l array n) [m] := by
  have hlen := Message.frame_length m
  have hcount := (isWritable_iff h.writeValid).mp hw
  have hnat : n.toNat = m.frame.length := by
    rw [hn, BitVec.toNat_ofNat]
    omega
  obtain ⟨buf, hfill, hvalid, hcontents⟩ := bufferArrayFill_below h.writeValid array n
    (by rw [hnat]; exact htake) hnat.symm (by omega)
  have hroom : buf.count ≤ 241 := by
    rw [← contents_length, hcontents, List.length_append, contents_length]
    omega
  have heq : spiWriteArray l array n =
      { l with writeBuf := buf, written := l.written ++ [m.frame], irq := true } := by
    rw [spiWriteArray, hfill, if_pos rfl, hnat, htake]
    rfl
  rw [heq]
  refine ⟨⟨h.readValid, hvalid, hroom, ?_, ?_, ?_⟩, ⟨rfl, rfl, rfl, ?_⟩⟩
  · simp only [h.written, List.map_append, List.map_cons, List.map_nil]
  · intro k hk
    rcases List.mem_append.mp hk with hk | hk
    · exact h.small k hk
    · rw [List.mem_singleton.mp hk]; exact hm
  · have hslot := h.slot
    cases held <;> exact hslot
  · simp only [hcontents, List.flatMap_singleton]

/-- The log of the frames made is nobody's concern. -/
theorem Flows.made {l : Link} {sent : List Message} {held : Option Message}
    (h : Flows l sent held) (frame : List Byte) :
    Flows { l with created := l.created ++ [frame] } sent held := by
  refine ⟨h.readValid, h.writeValid, h.room, h.written, h.small, ?_⟩
  have hslot := h.slot
  cases held <;> exact hslot

/-- A message with the serial to ignore goes out at once when there is room. -/
theorem postpone_written {l : Link} {sent : List Message} {held : Option Message}
    (h : Flows l sent held) {m : Message} (hz : m.serial = serialIdToIgnore)
    (hm : m.payload.length ≤ 8) (hw : isWritable l = true) :
    Flows (postponeMessage l m.frame m.serial) (sent ++ [m]) held ∧
      Sends l (postponeMessage l m.frame m.serial) [m] ∧
      (postponeMessage l m.frame m.serial).created = l.created ++ [m.frame] ∧
      (postponeMessage l m.frame m.serial).discarded = l.discarded := by
  have hw' : isWritable { l with created := l.created ++ [m.frame] } = true := hw
  obtain ⟨hf, hs⟩ := spiWriteArray_flows (h.made m.frame) hw' hm rfl List.take_length
  have heq : postponeMessage l m.frame m.serial =
      spiWriteArray { l with created := l.created ++ [m.frame] } m.frame
        (BitVec.ofNat 8 m.frame.length) := by
    rw [postponeMessage, if_pos hz, if_pos hw']
  rw [heq]
  exact ⟨hf, ⟨hs.readBuf, hs.spdr, hs.loaded, hs.contents⟩, rfl, rfl⟩

/-- Without room it is forgotten. -/
theorem postpone_ignored {l : Link} {sent : List Message} {held : Option Message}
    (h : Flows l sent held) {m : Message} (hz : m.serial = serialIdToIgnore)
    (hm : m.payload.length ≤ 8) :
    ∃ out, out.Sublist [m] ∧ Flows (postponeMessage l m.frame m.serial) (sent ++ out) held ∧
      Sends l (postponeMessage l m.frame m.serial) out ∧
      (postponeMessage l m.frame m.serial).created = l.created ++ [m.frame] ∧
      (postponeMessage l m.frame m.serial).discarded = l.discarded := by
  by_cases hw : isWritable l = true
  · exact ⟨[m], List.Sublist.refl _, postpone_written h hz hm hw⟩
  · have hw' : ¬ isWritable { l with created := l.created ++ [m.frame] } = true := hw
    have heq : postponeMessage l m.frame m.serial =
        { l with created := l.created ++ [m.frame] } := by
      rw [postponeMessage, if_pos hz, if_neg hw']
    rw [heq]
    refine ⟨[], List.nil_sublist _, ?_, ⟨rfl, rfl, rfl, by simp⟩, rfl, rfl⟩
    rw [List.append_nil]
    exact h.made m.frame

/-- A reply is put into the free slot. -/
theorem postpone_reply {l : Link} {sent : List Message} (h : Flows l sent none) {m : Message}
    (hz : m.serial ≠ serialIdToIgnore) (hm : m.payload.length ≤ 8) :
    Flows (postponeMessage l m.frame m.serial) sent (some m) ∧
      Sends l (postponeMessage l m.frame m.serial) [] ∧
      (postponeMessage l m.frame m.serial).created = l.created ++ [m.frame] ∧
      (postponeMessage l m.frame m.serial).discarded = l.discarded := by
  have hfree : ¬ l.postponedSize ≠ 0 := not_not.mpr h.slot
  have heq : postponeMessage l m.frame m.serial =
      { l with
        created := l.created ++ [m.frame]
        postponedSize := BitVec.ofNat 8 m.frame.length
        postponedMessage := m.frame ++ l.postponedMessage.drop m.frame.length } := by
    rw [postponeMessage, if_neg hz, if_neg hfree]
  rw [heq]
  refine ⟨⟨h.readValid, h.writeValid, h.room, h.written, h.small, hz, hm, rfl, ?_⟩,
    ⟨rfl, rfl, rfl, by simp⟩, rfl, rfl⟩
  exact List.take_left

theorem held_size_ne {l : Link} {k : Message} (h : Held l (some k)) : l.postponedSize ≠ 0 := by
  obtain ⟨-, hk, hsize, -⟩ := h
  have hlen := Message.frame_length k
  rw [hsize]
  intro hzero
  have hnat : (BitVec.ofNat 8 k.frame.length).toNat = 0 := by rw [hzero]; rfl
  rw [BitVec.toNat_ofNat] at hnat
  omega

/-- A reply that finds the slot taken is dropped. -/
theorem postpone_taken {l : Link} {sent : List Message} {k : Message} (h : Flows l sent (some k))
    {m : Message} (hz : m.serial ≠ serialIdToIgnore) :
    Flows (postponeMessage l m.frame m.serial) sent (some k) ∧
      Sends l (postponeMessage l m.frame m.serial) [] ∧
      (postponeMessage l m.frame m.serial).created = l.created ++ [m.frame] ∧
      (postponeMessage l m.frame m.serial).discarded = l.discarded ++ [m.frame] := by
  have htaken : l.postponedSize ≠ 0 := held_size_ne h.slot
  have heq : postponeMessage l m.frame m.serial =
      { l with
        created := l.created ++ [m.frame]
        discarded := l.discarded ++ [m.frame] } := by
    rw [postponeMessage, if_neg hz, if_pos htaken]
  rw [heq]
  exact ⟨⟨h.readValid, h.writeValid, h.room, h.written, h.small, h.slot⟩,
    ⟨rfl, rfl, rfl, by simp⟩, rfl, rfl⟩

/-- `postpone_try` does nothing, or sends what is held and frees the slot. -/
theorem postponeTry_flows {l : Link} {sent : List Message} {held : Option Message}
    (h : Flows l sent held) (shiftSpace : Byte) :
    postponeTry l shiftSpace = l ∨
      ∃ m, held = some m ∧ isEnoughSpace l shiftSpace = true ∧
        Flows (postponeTry l shiftSpace) (sent ++ [m]) none ∧
        Sends l (postponeTry l shiftSpace) [m] ∧
        (postponeTry l shiftSpace).created = l.created ∧
        (postponeTry l shiftSpace).discarded = l.discarded := by
  by_cases hidle : l.postponedSize = 0 ∨ isEnoughSpace l shiftSpace = false
  · left
    rw [postponeTry, if_pos hidle]
  · right
    have heq : postponeTry l shiftSpace =
        { spiWriteArray l l.postponedMessage l.postponedSize with postponedSize := 0 } := by
      rw [postponeTry, if_neg hidle]
    rw [not_or, Bool.not_eq_false] at hidle
    obtain ⟨hsize, hspace⟩ := hidle
    have hslot := h.slot
    cases held with
    | none => exact absurd hslot hsize
    | some m =>
      obtain ⟨hz, hm, hn, htake⟩ := hslot
      have hw : isWritable l = true := by
        unfold isEnoughSpace at hspace
        simp only [Bool.and_eq_true] at hspace
        exact hspace.1.1
      obtain ⟨hf, hs⟩ := spiWriteArray_flows h hw hm hn htake
      rw [heq]
      exact ⟨m, rfl, hspace, ⟨hf.readValid, hf.writeValid, hf.room, hf.written, hf.small, rfl⟩,
        ⟨hs.readBuf, hs.spdr, hs.loaded, hs.contents⟩, rfl, rfl⟩

/-! ### The interrupt -/

/-- What one `SPI_STC_vect` puts into `SPDR` and leaves in `write_buf`: the
overflow filler when `read_buf` has no free byte, else the next byte to send,
else the underflow filler. -/
theorem spiStcVect_flows {l : Link} {sent : List Message} {held : Option Message}
    (h : Flows l sent held) (received : Byte) :
    ∃ b, Flows (spiStcVect l received) sent held ∧ (spiStcVect l received).spdr = b ∧
      (spiStcVect l received).loaded = l.loaded ++ [b] ∧
      (spiStcVect l received).created = l.created ∧
      (spiStcVect l received).discarded = l.discarded ∧
      ((¬ l.readBuf.count < 255 ∧ b = spiReadOverflow ∧
          (spiStcVect l received).writeBuf.contents = l.writeBuf.contents) ∨
        (l.readBuf.count < 255 ∧
          l.writeBuf.contents = b :: (spiStcVect l received).writeBuf.contents) ∨
        (l.readBuf.count < 255 ∧ b = spiWriteUnderflow ∧ l.writeBuf.contents = [] ∧
          (spiStcVect l received).writeBuf.contents = [])) := by
  have hslot := h.slot
  by_cases hfull : l.readBuf.count < 255
  · obtain ⟨buf, hfill, hvalid⟩ := bufferByteFill_free h.readValid received hfull
    cases hc : l.writeBuf.contents with
    | nil =>
      have heq : spiStcVect l received =
          interruptStop (spdrLoad { l with readBuf := buf } spiWriteUnderflow) := by
        simp only [spiStcVect, hfill, bufferByteDrain_nil hc]
      rw [heq]
      refine ⟨spiWriteUnderflow, ⟨hvalid, h.writeValid, h.room, h.written, h.small, ?_⟩, rfl, rfl,
        rfl, rfl, .inr (.inr ⟨hfull, rfl, rfl, hc⟩)⟩
      cases held <;> exact hslot
    | cons b rest =>
      obtain ⟨out, hdrain, hout, hrest⟩ := bufferByteDrain_cons h.writeValid hc
      have heq : spiStcVect l received =
          spdrLoad { l with readBuf := buf, writeBuf := out } b := by
        simp only [spiStcVect, hfill, hdrain]
      have hroom : out.count ≤ 241 := by
        have hcount := congrArg List.length hc
        rw [contents_length, List.length_cons] at hcount
        have := h.room
        rw [← contents_length, hrest]
        omega
      rw [heq]
      refine ⟨b, ⟨hvalid, hout, hroom, h.written, h.small, ?_⟩, rfl, rfl, rfl, rfl,
        .inr (.inl ⟨hfull, ?_⟩)⟩
      · cases held <;> exact hslot
      · simp only [spdrLoad, hrest]
  · have heq : spiStcVect l received = spdrLoad l spiReadOverflow := by
      simp only [spiStcVect, bufferByteFill_full h.readValid received hfull]
    rw [heq]
    refine ⟨spiReadOverflow, ⟨h.readValid, h.writeValid, h.room, h.written, h.small, ?_⟩, rfl, rfl,
      rfl, rfl, .inl ⟨hfull, rfl, rfl⟩⟩
    cases held <;> exact hslot

theorem linkInit_flows : Flows linkInit [] none where
  readValid := bufferInit_valid
  writeValid := bufferInit_valid
  room := by decide +kernel
  written := rfl
  small := by simp
  slot := rfl

end LedServer.Avr
