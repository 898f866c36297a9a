import LedServer.SpiStream
import LedServer.SessionReset

set_option autoImplicit false

/-!
# The room in `write_buf` and the line to Pi

`flush` of `postpone.c` drops what `spi_write_array` returns. Each of its calls
is listed here, with the buffer it finds.
-/
namespace LedServer.Avr
open AvrRing Machine

/-- What `INT3_vect` does before it encodes VERSION. -/
def clearedLink (l : Link) : Link :=
  { l with
    readBuf := bufferClear l.readBuf
    writeBuf := bufferClear l.writeBuf
    confirm := true }

def int3Link (l : Link) : Link :=
  encodeMsg1 (clearedLink l) msgIdVersion serialIdToIgnore protocolVersion

theorem int3Vect_link (s : State) : (int3Vect s).link = int3Link s.link := rfl

/-- The heartbeat raises the line too, and the timer lowers its neighbour. -/
inductive SpiEvent where
  | link (e : LinkEvent)
  | int3
  | interruptStart
  | misconfirm

def spiStep (l : Link) : SpiEvent → Link
  | .link e => linkStep l e
  | .int3 => int3Link l
  | .interruptStart => spiInterruptStart l
  | .misconfirm => misconfirm l

/-! ### The calls of `flush` -/

structure FlushCall where
  buf : Buffer
  msg : List Byte
  size : Byte

/-- What the call makes of `write_buf`, and the status it drops. -/
def FlushCall.result (f : FlushCall) : Buffer × Bool := bufferArrayFill f.buf f.msg f.size

def FlushCall.Accepted (f : FlushCall) : Prop :=
  f.result.2 = true ∧ f.size.toNat ≤ f.msg.length ∧
    f.result.1.contents = f.buf.contents ++ f.msg.take f.size.toNat

def messageFlushes (l : Link) (msg : List Byte) (serialId : Byte) : List FlushCall :=
  if serialId = serialIdToIgnore ∧ isWritable l = true then
    [⟨l.writeBuf, msg, BitVec.ofNat 8 msg.length⟩]
  else []

def tryFlushes (l : Link) (shiftSpace : Byte) : List FlushCall :=
  if l.postponedSize = 0 ∨ isEnoughSpace l shiftSpace = false then []
  else [⟨l.writeBuf, l.postponedMessage, l.postponedSize⟩]

/-- There is a function for it: `encode_msg_7` is missing. -/
def Encodable (m : Message) : Prop := m.payload.length ≤ 8 ∧ m.payload.length ≠ 7

instance (m : Message) : Decidable (Encodable m) := inferInstanceAs (Decidable (_ ∧ _))

def flushes (l : Link) : SpiEvent → List FlushCall
  | .link (.encode m) => if Encodable m then messageFlushes l m.frame m.serial else []
  | .link (.postponeTry shiftSpace) => tryFlushes l shiftSpace
  | .int3 => messageFlushes (clearedLink l) versionMessage.frame serialIdToIgnore
  | _ => []

theorem encodeMessage_eq (l : Link) (m : Message) :
    encodeMessage l m = if Encodable m then postponeMessage l m.frame m.serial else l := by
  obtain ⟨serial, id, payload⟩ := m
  unfold encodeMessage
  dsimp only
  split
  case h_9 hlen0 hlen1 hlen2 hlen3 hlen4 hlen5 hlen6 hlen8 =>
    refine (if_neg ?_).symm
    rintro ⟨hle, hne⟩
    match payload with
    | [] => exact hlen0 rfl
    | [a] => exact hlen1 a rfl
    | [a, b] => exact hlen2 a b rfl
    | [a, b, c] => exact hlen3 a b c rfl
    | [a, b, c, d] => exact hlen4 a b c d rfl
    | [a, b, c, d, e] => exact hlen5 a b c d e rfl
    | [a, b, c, d, e, f] => exact hlen6 a b c d e f rfl
    | [a, b, c, d, e, f, g] => exact hne rfl
    | [a, b, c, d, e, f, g, h] => exact hlen8 a b c d e f g h rfl
    | a :: b :: c :: d :: e :: f :: g :: h :: i :: rest =>
      simp only [List.length_cons] at hle
      omega
  all_goals exact (if_pos ⟨by simp, by simp⟩).symm

theorem postponeMessage_flushes (l : Link) (msg : List Byte) (serialId : Byte) :
    (∃ f, messageFlushes l msg serialId = [f] ∧
        (postponeMessage l msg serialId).writeBuf = f.result.1) ∨
      (messageFlushes l msg serialId = [] ∧
        (postponeMessage l msg serialId).writeBuf = l.writeBuf) := by
  unfold messageFlushes postponeMessage
  dsimp only
  by_cases hz : serialId = serialIdToIgnore
  · have hmade : isWritable { l with created := l.created ++ [msg] } = isWritable l := rfl
    rw [if_pos hz, hmade]
    by_cases hw : isWritable l = true
    · rw [if_pos ⟨hz, hw⟩, if_pos hw]
      exact .inl ⟨_, rfl, rfl⟩
    · rw [if_neg fun h => hw h.2, if_neg hw]
      exact .inr ⟨rfl, rfl⟩
  · rw [if_neg fun h => hz h.1, if_neg hz]
    refine .inr ⟨rfl, ?_⟩
    split <;> rfl

/-- What an event puts into `write_buf` goes in by the call listed for it. -/
theorem spiStep_flushes (l : Link) (e : SpiEvent) :
    (∃ f, flushes l e = [f] ∧ (spiStep l e).writeBuf = f.result.1) ∨
      (flushes l e = [] ∧ ((spiStep l e).writeBuf = l.writeBuf ∨
        ∃ received, e = .link (.exchange received))) := by
  match e with
  | .link (.encode m) =>
    unfold flushes spiStep linkStep
    dsimp only
    rw [encodeMessage_eq]
    split
    · exact (postponeMessage_flushes l m.frame m.serial).imp_right fun h => ⟨h.1, .inl h.2⟩
    · exact .inr ⟨rfl, .inl rfl⟩
  | .link (.postponeTry shiftSpace) =>
    unfold flushes spiStep linkStep tryFlushes postponeTry
    dsimp only
    split
    · exact .inr ⟨rfl, .inl rfl⟩
    · exact .inl ⟨_, rfl, rfl⟩
  | .link .readSymbol => exact .inr ⟨rfl, .inl rfl⟩
  | .link (.readArray arr arrSize) => exact .inr ⟨rfl, .inl rfl⟩
  | .link (.exchange received) => exact .inr ⟨rfl, .inr ⟨received, rfl⟩⟩
  | .int3 =>
    rcases postponeMessage_flushes (clearedLink l) versionMessage.frame serialIdToIgnore with
      hone | ⟨hnone, -⟩
    · exact .inl hone
    · -- the buffer is empty: there is room
      have hyes : messageFlushes (clearedLink l) versionMessage.frame serialIdToIgnore ≠ [] := by
        have hempty : (clearedLink l).writeBuf.contents = [] := ringClear_contents _
        have hw : isWritable (clearedLink l) = true := by
          rw [isWritable_iff (bufferClear_valid _), ← contents_length, hempty]
          exact Nat.zero_le _
        unfold messageFlushes
        rw [if_pos ⟨rfl, hw⟩]
        exact List.cons_ne_nil _ _
      exact absurd hnone hyes
  | .interruptStart => exact .inr ⟨rfl, .inl rfl⟩
  | .misconfirm => exact .inr ⟨rfl, .inl rfl⟩

/-! ### Room for every frame -/

theorem flush_accepted {l : Link} (hv : l.writeBuf.Valid) (hw : isWritable l = true) {m : Message}
    (hm : m.payload.length ≤ 8) {array : List Byte} {n : Byte}
    (hn : n = BitVec.ofNat 8 m.frame.length) (htake : array.take m.frame.length = m.frame) :
    FlushCall.Accepted ⟨l.writeBuf, array, n⟩ := by
  have hlen := Message.frame_length m
  have hcount := (isWritable_iff hv).mp hw
  have hnat : n.toNat = m.frame.length := by
    rw [hn, BitVec.toNat_ofNat]
    omega
  obtain ⟨buf, hfill, -, hcontents⟩ := bufferArrayFill_below hv array n
    (by rw [hnat]; exact htake) hnat.symm (by omega)
  refine ⟨congrArg Prod.snd hfill, ?_, ?_⟩
  · have hfits := congrArg List.length htake
    rw [List.length_take] at hfits
    dsimp only
    omega
  · change (bufferArrayFill l.writeBuf array n).1.contents = _
    rw [hfill, hcontents, hnat, htake]

theorem messageFlushes_accepted {l : Link} (hv : l.writeBuf.Valid) {m : Message}
    (hm : m.payload.length ≤ 8) (serialId : Byte) :
    ∀ f ∈ messageFlushes l m.frame serialId, f.Accepted := by
  unfold messageFlushes
  intro f hf
  split at hf
  · rename_i hsent
    rw [List.mem_singleton.mp hf]
    exact flush_accepted hv hsent.2 hm rfl List.take_length
  · exact absurd hf List.not_mem_nil

/-- The room `write_buf` is never without, and the line that is raised for it. -/
structure RoomKept (l : Link) : Prop where
  room : l.writeBuf.count < 255
  irq : l.writeBuf.contents ≠ [] → l.irq = true

structure RoomSound (l : Link) : Prop where
  flows : ∃ sent held, Flows l sent held
  irq : l.writeBuf.contents ≠ [] → l.irq = true

theorem RoomSound.kept {l : Link} (h : RoomSound l) : RoomKept l := by
  obtain ⟨sent, held, hf⟩ := h.flows
  exact ⟨Nat.lt_of_le_of_lt hf.room (by decide), h.irq⟩

theorem RoomSound.flushes {l : Link} (h : RoomSound l) (e : SpiEvent) :
    ∀ f ∈ flushes l e, f.Accepted := by
  obtain ⟨sent, held, hf⟩ := h.flows
  intro f hmem
  match e with
  | .link (.encode m) =>
    unfold Avr.flushes at hmem
    dsimp only at hmem
    split at hmem
    · rename_i hm
      exact messageFlushes_accepted hf.writeValid hm.1 _ f hmem
    · exact absurd hmem List.not_mem_nil
  | .link (.postponeTry shiftSpace) =>
    unfold Avr.flushes tryFlushes at hmem
    dsimp only at hmem
    split at hmem
    · exact absurd hmem List.not_mem_nil
    · rename_i hsend
      rw [not_or, Bool.not_eq_false] at hsend
      obtain ⟨hsize, hspace⟩ := hsend
      rw [List.mem_singleton.mp hmem]
      -- what is held is the frame of a reply
      have hslot := hf.slot
      cases held with
      | none => exact absurd hslot hsize
      | some m =>
        obtain ⟨-, hm, hn, htake⟩ := hslot
        unfold isEnoughSpace at hspace
        simp only [Bool.and_eq_true] at hspace
        exact flush_accepted hf.writeValid hspace.1.1 hm hn htake
  | .int3 =>
    exact messageFlushes_accepted (l := clearedLink l) (bufferClear_valid _)
      (m := versionMessage) (by decide) _ f hmem

/-! ### One event -/

theorem encodeMessage_flows {l : Link} {sent : List Message} {held : Option Message}
    (h : Flows l sent held) (m : Message) :
    ∃ sent held, Flows (encodeMessage l m) sent held := by
  rw [encodeMessage_eq]
  split
  · rename_i hm
    by_cases hz : m.serial = serialIdToIgnore
    · obtain ⟨out, -, hf, -⟩ := postpone_ignored h hz hm.1
      exact ⟨_, _, hf⟩
    · cases held with
      | none => exact ⟨_, _, (postpone_reply h hz hm.1).1⟩
      | some k => exact ⟨_, _, (postpone_taken h hz).1⟩
  · exact ⟨sent, held, h⟩

theorem spiStep_flows {l : Link} (h : ∃ sent held, Flows l sent held) (e : SpiEvent) :
    ∃ sent held, Flows (spiStep l e) sent held := by
  obtain ⟨sent, held, hf⟩ := h
  have hslot := hf.slot
  match e with
  | .link (.encode m) => exact encodeMessage_flows hf m
  | .link (.postponeTry shiftSpace) =>
    rcases postponeTry_flows hf shiftSpace with hno | ⟨m, -, -, hf', -⟩
    · exact ⟨sent, held, by rw [spiStep, linkStep, hno]; exact hf⟩
    · exact ⟨_, _, hf'⟩
  | .link .readSymbol => exact ⟨sent, held, hf.read (bufferByteDrain_valid hf.readValid)⟩
  | .link (.readArray arr n) =>
    exact ⟨sent, held, hf.read (bufferArrayDrain_valid hf.readValid arr n)⟩
  | .link (.exchange received) =>
    obtain ⟨b, hf', -⟩ := spiStcVect_flows hf received
    exact ⟨_, _, hf'⟩
  | .int3 =>
    exact ⟨_, _, (int3Vect_flows (s := { powerUp with link := l }) hf).1⟩
  | .interruptStart =>
    refine ⟨sent, held, hf.readValid, hf.writeValid, hf.room, hf.written, hf.small, ?_⟩
    cases held <;> exact hslot
  | .misconfirm =>
    refine ⟨sent, held, hf.readValid, hf.writeValid, hf.room, hf.written, hf.small, ?_⟩
    cases held <;> exact hslot

/-- `spi_write_array` raises the line; otherwise nothing is put in. -/
theorem postponeMessage_irq (l : Link) (msg : List Byte) (serialId : Byte) :
    (postponeMessage l msg serialId).irq = true ∨
      ((postponeMessage l msg serialId).irq = l.irq ∧
        (postponeMessage l msg serialId).writeBuf = l.writeBuf) := by
  unfold postponeMessage
  dsimp only
  split_ifs
  · exact .inl rfl
  all_goals exact .inr ⟨rfl, rfl⟩

/-- The line is lowered only when the byte taken out was the last. -/
theorem spiStcVect_irq {l : Link} (hv : l.writeBuf.Valid)
    (h : l.writeBuf.contents ≠ [] → l.irq = true) (received : Byte) :
    (spiStcVect l received).writeBuf.contents ≠ [] → (spiStcVect l received).irq = true := by
  unfold spiStcVect
  rcases bufferByteFill l.readBuf received with ⟨readBuf, _ | _⟩
  · exact h
  · dsimp only
    cases hc : l.writeBuf.contents with
    | nil =>
      rw [bufferByteDrain_nil hc]
      exact fun hne => absurd hc hne
    | cons b rest =>
      obtain ⟨out, hdrain, -, -⟩ := bufferByteDrain_cons hv hc
      rw [hdrain]
      exact fun _ => h (by rw [hc]; exact List.cons_ne_nil b rest)

theorem RoomSound.step {l : Link} (h : RoomSound l) (e : SpiEvent) : RoomSound (spiStep l e) := by
  refine ⟨spiStep_flows h.flows e, ?_⟩
  obtain ⟨sent, held, hf⟩ := h.flows
  match e with
  | .link (.encode m) =>
    unfold spiStep linkStep
    dsimp only
    rw [encodeMessage_eq]
    split
    · rcases postponeMessage_irq l m.frame m.serial with hup | ⟨hirq, hbuf⟩
      · exact fun _ => hup
      · rw [hirq, hbuf]
        exact h.irq
    · exact h.irq
  | .link (.postponeTry shiftSpace) =>
    unfold spiStep linkStep postponeTry
    dsimp only
    split
    · exact h.irq
    · exact fun _ => rfl
  | .link .readSymbol => exact h.irq
  | .link (.readArray arr n) => exact h.irq
  | .link (.exchange received) => exact spiStcVect_irq hf.writeValid h.irq received
  | .int3 =>
    have hempty : (clearedLink l).writeBuf.contents = [] := ringClear_contents _
    rcases postponeMessage_irq (clearedLink l) versionMessage.frame serialIdToIgnore with
      hup | ⟨-, hbuf⟩
    · exact fun _ => hup
    · intro hne
      refine absurd ?_ hne
      exact (congrArg Ring.contents hbuf).trans hempty
  | .interruptStart => exact fun _ => rfl
  | .misconfirm => exact h.irq

/-- From `spi_init` on, `write_buf` is never filled, what `flush` writes is taken
whole, and the line is raised while there is something to send. -/
theorem write_buf_room (es : List SpiEvent) :
    Throughout spiStep RoomKept linkInit es ∧
      Along spiStep (fun l e => ∀ f ∈ flushes l e, f.Accepted) linkInit es := by
  have hinit : RoomSound linkInit :=
    ⟨⟨[], none, linkInit_flows⟩, fun hne => absurd (ringInit_contents 255) hne⟩
  constructor
  · rw [throughout_iff_start]
    exact fun ds _ => (run_keeps (fun _ e hs => hs.step e) ds hinit).kept
  · exact along_of_invariant (fun _ e hs => hs.step e) (fun _ e hs => hs.flushes e) es hinit

end LedServer.Avr
