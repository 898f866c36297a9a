import LedServer.Machine
import LedServer.McuHandle

set_option autoImplicit false

/-!
# `spi_dev_t::transfer` when its `ioctl` fails

`readBuf` is what the driver has put into `read_buf`, and nothing when the call
fails. A part of `start` that writes a message is taken with the whole of
`write_msg` here, since nobody looks at `m_block` in between.
-/
namespace LedServer.Mcu
open Machine

/-- `spi_dev_t::transfer`: a failed one is logged and leaves `in_msg` empty. -/
def transfer (m : McuHandle) : Option (ℕ → Byte) → McuHandle
  | none => { m with out := [], inn := [] }
  | some readBuf => { m with out := [], inn := (List.range m.out.length).map readBuf }

/-- The whole of `write_msg`. -/
def writeMsgWhole (m : McuHandle) (msgSrc : List Byte) (back : McuPc)
    (readBuf : Option (ℕ → Byte)) : McuHandle :=
  match decodeGetSerial msgSrc with
  | none => writeMsg m msgSrc back
  | some _ => readMsg (transfer (writeMsg m msgSrc back) readBuf) back

def McuPc.isTransfer : McuPc → Bool
  | .transfer _ => true
  | _ => false

/-- The message the next part of `start` gives to `write_msg`. -/
def writing (m : McuHandle) : Option (List Byte) :=
  if m.thrown = true then none
  else
    match m.pc with
    | .interrupt =>
      if m.interruptRised = true then some (encodeJoin serialIdToIgnore msgIdIdle []) else none
    | .send => if isEngaged m.pendingId = true then none else m.toQueue.head?
    | _ => none

/-- The loop of `start` with the calls of `ioctl` it has made: what was to be
sent, and whether it was. -/
structure StartRun where
  handle : McuHandle
  ioctls : List (List Byte × Bool)
deriving DecidableEq

def startInit : StartRun := ⟨mcuHandleInit, []⟩

/-- The two queues are pushed to by the other threads. -/
inductive StartEvent where
  | message (msg : List Byte)
  | interrupt (rised : Bool)
  | part (readBuf : Option (ℕ → Byte))

def startStep (r : StartRun) : StartEvent → StartRun
  | .message msg => { r with handle := { r.handle with toQueue := r.handle.toQueue ++ [msg] } }
  | .interrupt rised =>
    { r with handle := { r.handle with interruptQueue := r.handle.interruptQueue ++ [rised] } }
  | .part readBuf =>
    if (mcuStep r.handle).pc.isTransfer = true then
      { handle := mcuStep (transfer (mcuStep r.handle) readBuf)
        ioctls := r.ioctls ++ [((mcuStep r.handle).out, readBuf.isSome)] }
    else { r with handle := mcuStep r.handle }

/-- The serial behind the eye catch and the size. -/
def wireSerial (out : List Byte) : Byte := out.getD 2 serialIdToIgnore

def isNumbered (call : List Byte × Bool) : Bool := wireSerial call.1 ≠ serialIdToIgnore

/-- The block stands for a message that is on its way: the last numbered one is
the pending one, and has been sent. -/
def Delivered (r : StartRun) : Prop :=
  isEngaged r.handle.pendingId = true →
    ∃ out, (r.ioctls.filter isNumbered).getLast? = some (out, true) ∧
      wireSerial out = r.handle.pendingId

/-- No `ioctl` fails for a numbered message. -/
def Sends (r : StartRun) : StartEvent → Prop
  | .part none => ∀ msg ∈ writing r.handle, ∀ serial ∈ decodeGetSerial msg,
      serial = serialIdToIgnore
  | _ => True

/-! ### `write_msg` -/

theorem writeMsg_some {msgSrc : List Byte} {serial : Byte}
    (h : decodeGetSerial msgSrc = some serial) (m : McuHandle) (back : McuPc) :
    writeMsg m msgSrc back =
      { m with
        pendingId := (engage m.pendingId serial).1
        mismatched := m.mismatched || (engage m.pendingId serial).2
        out := encodeWrap msgSrc
        inn := []
        pc := .transfer back } := by
  rw [writeMsg, h]

theorem wireSerial_wrap {msgSrc : List Byte} {serial : Byte}
    (h : decodeGetSerial msgSrc = some serial) : wireSerial (encodeWrap msgSrc) = serial := by
  match msgSrc, h with
  | _ :: _ :: _, h => exact Option.some.inj h

/-- A transfer that succeeds is one of its bytes after the other. -/
theorem foldl_transferByte (bytes : List Byte) {m : McuHandle} (h : bytes.length = m.out.length) :
    bytes.foldl transferByte m = { m with out := [], inn := m.inn ++ bytes } := by
  induction bytes generalizing m with
  | nil =>
    rw [List.length_nil] at h
    rw [List.foldl_nil, List.append_nil, ← List.length_eq_zero_iff.mp h.symm]
  | cons b bytes ih =>
    have hrest : bytes.length = (transferByte m b).out.length := by
      simp only [transferByte, List.length_tail, ← h, List.length_cons, Nat.add_sub_cancel]
    rw [List.foldl_cons, ih hrest]
    simp [transferByte]

theorem transfer_bytes {m : McuHandle} (h : m.inn = []) (readBuf : ℕ → Byte) :
    transfer m (some readBuf) =
      ((List.range m.out.length).map readBuf).foldl transferByte m := by
  rw [foldl_transferByte _ (by simp), h, List.nil_append]
  rfl

/-- What comes in can only relax the block. -/
theorem readByte_pendingId (m : McuHandle) (b : Byte) :
    (readByte m b).pendingId = m.pendingId ∨ (readByte m b).pendingId = serialIdToIgnore := by
  unfold readByte
  split
  · exact .inl rfl
  · split
    · exact .inl rfl
    · split
      · exact .inl rfl
      · rename_i serial _
        split
        · exact .inl rfl
        · rename_i pendingId hrelax
          unfold relax at hrelax
          split at hrelax
          · exact .inl (congrArg Prod.fst hrelax).symm
          · split at hrelax
            · exact absurd (congrArg Prod.snd hrelax) (by simp)
            · exact .inr (congrArg Prod.fst hrelax).symm

theorem readMsg_pendingId (m : McuHandle) (back : McuPc) :
    (readMsg m back).pendingId = m.pendingId ∨
      (readMsg m back).pendingId = serialIdToIgnore := by
  have hbytes : ∀ (bytes : List Byte) (m : McuHandle),
      (bytes.foldl readByte m).pendingId = m.pendingId ∨
        (bytes.foldl readByte m).pendingId = serialIdToIgnore := by
    intro bytes
    induction bytes with
    | nil => exact fun m => .inl rfl
    | cons b bytes ih =>
      intro m
      rw [List.foldl_cons]
      rcases ih (readByte m b) with hrest | hrest
      · rw [hrest]
        exact readByte_pendingId m b
      · exact .inr hrest
  exact hbytes m.inn m

/-- Nothing is read when the transfer has failed. -/
theorem failed_pendingId {msgSrc : List Byte} {serial : Byte}
    (h : decodeGetSerial msgSrc = some serial) (m : McuHandle) (back : McuPc) :
    (readMsg (transfer (writeMsg m msgSrc back) none) back).pendingId =
      (engage m.pendingId serial).1 := by
  rw [writeMsg_some h]
  rfl

theorem engage_unchanged_iff {id : Byte} (h : id ≠ serialIdToIgnore) (pendingId : Byte) :
    (engage pendingId id).1 = pendingId ↔ isEngaged pendingId = true := by
  unfold engage
  rw [if_neg h]
  split_ifs with hother
  · exact iff_of_true rfl hother.1
  · rw [isEngaged_iff]
    constructor
    · rintro rfl
      exact h
    · intro hengaged
      by_contra hne
      exact hother ⟨(isEngaged_iff pendingId).mpr hengaged, fun heq => hne heq.symm⟩

/-! ### A part of `start` -/

/-- Either the part writes nothing, and the block is as it was, or it is at the
call of `ioctl` for the message of `writing`, which finds the block free or has
no serial of its own. -/
theorem mcuStep_writes {m : McuHandle} (h : m.pc.isTransfer = false) :
    ((mcuStep m).pc.isTransfer = false ∧ (mcuStep m).pendingId = m.pendingId ∧
      ∀ msg ∈ writing m, decodeGetSerial msg = none) ∨
    ∃ (w : McuHandle) (msg : List Byte) (serial : Byte) (back : McuPc),
      mcuStep m = writeMsg w msg back ∧ writing m = some msg ∧
        decodeGetSerial msg = some serial ∧ w.pendingId = m.pendingId ∧ w.thrown = false ∧
        back.isTransfer = false ∧
        (serial = serialIdToIgnore ∨ m.pendingId = serialIdToIgnore) := by
  have hnothing : ∀ msg ∈ (none : Option (List Byte)), decodeGetSerial msg = none := nofun
  unfold mcuStep writing
  by_cases hthrown : m.thrown = true
  · rw [if_pos hthrown, if_pos hthrown]
    exact .inl ⟨h, rfl, hnothing⟩
  rw [if_neg hthrown, if_neg hthrown]
  rw [Bool.not_eq_true] at hthrown
  split
  · rename_i hpc
    rw [hpc]
    dsimp only
    split_ifs with hrised
    · exact .inr ⟨m, _, serialIdToIgnore, .popInterrupt, rfl, rfl, rfl, rfl, hthrown, rfl, .inl rfl⟩
    · exact .inl ⟨rfl, rfl, hnothing⟩
  · rename_i hpc
    rw [hpc]
    refine .inl ⟨?_, rfl, hnothing⟩
    dsimp only
    split_ifs <;> rfl
  · rename_i hpc
    rw [hpc]
    split_ifs <;> exact .inl ⟨rfl, rfl, hnothing⟩
  · rename_i hpc
    rw [hpc]
    dsimp only
    split_ifs with hengaged
    · exact .inl ⟨rfl, rfl, hnothing⟩
    · have hfree : m.pendingId = serialIdToIgnore := by
        rwa [isEngaged_iff, not_not] at hengaged
      cases hqueue : m.toQueue with
      | nil => exact .inl ⟨rfl, rfl, hnothing⟩
      | cons msg rest =>
        dsimp only [List.head?_cons]
        cases hserial : decodeGetSerial msg with
        | none =>
          rw [writeMsg, hserial]
          refine .inl ⟨rfl, rfl, fun msg' hmsg => ?_⟩
          rwa [← Option.some.inj hmsg]
        | some serial =>
          exact .inr ⟨{ m with toQueue := rest }, msg, serial, .interrupt, rfl, rfl, hserial, rfl,
            hthrown, rfl, .inr hfree⟩
  · rename_i back hpc
    rw [hpc] at h
    exact absurd h (by simp [McuPc.isTransfer])

/-- From the call of `ioctl` the part goes to the end of `write_msg`. -/
theorem mcuStep_reads {w : McuHandle} {msg : List Byte} {serial : Byte} (back : McuPc)
    (hserial : decodeGetSerial msg = some serial) (hthrown : w.thrown = false)
    (readBuf : Option (ℕ → Byte)) :
    mcuStep (transfer (writeMsg w msg back) readBuf) = writeMsgWhole w msg back readBuf := by
  rw [writeMsgWhole, hserial]
  dsimp only
  rw [writeMsg_some hserial]
  cases readBuf with
  | none =>
    unfold mcuStep
    rw [if_neg (by simp [transfer, hthrown])]
    rfl
  | some readBuf =>
    unfold mcuStep
    rw [if_neg (by simp [transfer, hthrown])]
    rfl

/-- A part of `start` is what it is byte by byte. -/
theorem startStep_bytes {r : StartRun} (h : r.handle.pc.isTransfer = false)
    (hwrites : (mcuStep r.handle).pc.isTransfer = true) (readBuf : ℕ → Byte) :
    (startStep r (.part (some readBuf))).handle =
      mcuStep (((List.range (mcuStep r.handle).out.length).map readBuf).foldl transferByte
        (mcuStep r.handle)) := by
  obtain ⟨hquiet, -⟩ | ⟨w, msg, serial, back, hwrite, -, hserial, -⟩ := mcuStep_writes h
  · rw [hquiet] at hwrites
    cases hwrites
  · have hinn : (mcuStep r.handle).inn = [] := by
      rw [hwrite, writeMsg_some hserial]
    rw [startStep, if_pos hwrites, transfer_bytes hinn]

theorem writeMsgWhole_pc {msg : List Byte} {serial : Byte}
    (hserial : decodeGetSerial msg = some serial) (w : McuHandle) (back : McuPc)
    (readBuf : Option (ℕ → Byte)) : (writeMsgWhole w msg back readBuf).pc = back := by
  rw [writeMsgWhole, hserial]
  rfl

theorem between_step {r : StartRun} (h : r.handle.pc.isTransfer = false) (e : StartEvent) :
    (startStep r e).handle.pc.isTransfer = false := by
  cases e with
  | message msg => exact h
  | interrupt rised => exact h
  | part readBuf =>
    rw [startStep]
    split_ifs with hwrites
    · obtain ⟨hquiet, -⟩ | ⟨w, msg, serial, back, hwrite, -, hserial, -, hthrown, hback, -⟩ :=
        mcuStep_writes h
      · rw [hquiet] at hwrites
        cases hwrites
      · dsimp only
        rw [hwrite, mcuStep_reads back hserial hthrown, writeMsgWhole_pc hserial]
        exact hback
    · exact Bool.not_eq_true _ ▸ hwrites

/-! ### What the block stands for -/

/-- A message without a serial of its own leaves the last numbered one the last. -/
theorem delivered_ignored {r : StartRun} (h : Delivered r) {out : List Byte} (sent : Bool)
    (hout : wireSerial out = serialIdToIgnore) {m : McuHandle}
    (hpending : m.pendingId = r.handle.pendingId ∨ m.pendingId = serialIdToIgnore) :
    Delivered ⟨m, r.ioctls ++ [(out, sent)]⟩ := by
  intro hengaged
  dsimp only at hengaged ⊢
  rcases hpending with hpending | hpending
  · rw [hpending] at hengaged ⊢
    obtain ⟨last, hlast, hserial⟩ := h hengaged
    refine ⟨last, ?_, hserial⟩
    have hskip : isNumbered (out, sent) = false := by simp [isNumbered, hout]
    rw [List.filter_append, List.filter_cons_of_neg (by simp [hskip]), List.filter_nil,
      List.append_nil]
    exact hlast
  · rw [hpending] at hengaged
    cases hengaged

/-- A numbered message is the last one from now on. -/
theorem delivered_numbered (ioctls : List (List Byte × Bool)) {out : List Byte}
    (sent : Bool) (hout : wireSerial out ≠ serialIdToIgnore) {m : McuHandle}
    (hpending : m.pendingId = wireSerial out) :
    Delivered ⟨m, ioctls ++ [(out, sent)]⟩ ↔ sent = true := by
  have hlast : ((ioctls ++ [(out, sent)]).filter isNumbered).getLast? = some (out, sent) := by
    have hkeep : isNumbered (out, sent) = true := by simp [isNumbered, hout]
    rw [List.filter_append, List.filter_cons_of_pos hkeep, List.filter_nil, List.getLast?_concat]
  have hengaged : isEngaged m.pendingId = true := by
    rw [isEngaged_iff, hpending]
    exact hout
  constructor
  · intro h
    obtain ⟨out', hout', -⟩ := h hengaged
    rw [hlast] at hout'
    exact congrArg Prod.snd (Option.some.inj hout')
  · rintro rfl _
    exact ⟨out, hlast, hpending.symm⟩

theorem delivered_step_iff {r : StartRun} (hbetween : r.handle.pc.isTransfer = false)
    (h : Delivered r) (e : StartEvent) : Delivered (startStep r e) ↔ Sends r e := by
  cases e with
  | message msg => exact iff_of_true h trivial
  | interrupt rised => exact iff_of_true h trivial
  | part readBuf =>
    obtain ⟨hquiet, hsame, hnone⟩ |
      ⟨w, msg, serial, back, hwrite, hwriting, hserial, hpending, hthrown, -, hfree⟩ :=
        mcuStep_writes hbetween
    · refine iff_of_true ?_ ?_
      · rw [startStep, if_neg (by simp [hquiet])]
        unfold Delivered
        dsimp only
        rw [hsame]
        exact h
      · cases readBuf with
        | some readBuf => trivial
        | none =>
          intro msg hmsg serial hserial
          rw [hnone msg hmsg] at hserial
          cases hserial
    -- the part is in `write_msg`
    have hstep : startStep r (.part readBuf) =
        ⟨writeMsgWhole w msg back readBuf, r.ioctls ++ [(encodeWrap msg, readBuf.isSome)]⟩ := by
      rw [startStep, if_pos (by rw [hwrite, writeMsg_some hserial]; rfl), hwrite,
        mcuStep_reads back hserial hthrown]
      rw [writeMsg_some hserial]
    have hwhole : writeMsgWhole w msg back readBuf =
        readMsg (transfer (writeMsg w msg back) readBuf) back := by
      rw [writeMsgWhole, hserial]
    have hengage : (transfer (writeMsg w msg back) readBuf).pendingId =
        (engage r.handle.pendingId serial).1 := by
      rw [writeMsg_some hserial, hpending]
      cases readBuf <;> rfl
    have hread := readMsg_pendingId (transfer (writeMsg w msg back) readBuf) back
    rw [← hwhole, hengage] at hread
    rw [hstep]
    by_cases hignored : serial = serialIdToIgnore
    · rw [hignored, engage_ignored] at hread
      refine iff_of_true (delivered_ignored h _ ?_ hread) ?_
      · rw [wireSerial_wrap hserial, hignored]
      · cases readBuf with
        | some readBuf => trivial
        | none =>
          intro msg' hmsg serial' hserial'
          rw [hwriting] at hmsg
          obtain rfl := Option.some.inj hmsg
          rw [hserial] at hserial'
          rw [← Option.some.inj hserial', hignored]
    · have hout : wireSerial (encodeWrap msg) ≠ serialIdToIgnore := by
        rwa [wireSerial_wrap hserial]
      rw [hfree.resolve_left hignored, engage_free] at hread
      cases readBuf with
      | some readBuf =>
        refine iff_of_true ?_ trivial
        rcases hread with hkept | hrelaxed
        · exact (delivered_numbered _ _ hout (hkept.trans (wireSerial_wrap hserial).symm)).mpr rfl
        · intro hengaged
          rw [hrelaxed] at hengaged
          cases hengaged
      | none =>
        have hkept : (writeMsgWhole w msg back none).pendingId = serial := by
          rw [hwhole, failed_pendingId hserial, hpending, hfree.resolve_left hignored, engage_free]
        rw [delivered_numbered _ _ hout (hkept.trans (wireSerial_wrap hserial).symm)]
        refine iff_of_false (by simp) fun hsends => hignored ?_
        exact hsends msg hwriting serial hserial

/-! ### The results -/

/-- A failed transfer leaves the block as it was exactly when the block was
engaged before, and the block stands for a message that has been sent exactly
in the runs in which no numbered one fails. -/
theorem failed_unchanged_iff {msg : List Byte} {serial : Byte}
    (hserial : decodeGetSerial msg = some serial) (hnumbered : serial ≠ serialIdToIgnore)
    (m : McuHandle) (back : McuPc) (es : List StartEvent) :
    ((writeMsgWhole m msg back none).pendingId = m.pendingId ↔ isEngaged m.pendingId = true) ∧
      (Throughout startStep Delivered startInit es ↔ Along startStep Sends startInit es) := by
  constructor
  · rw [writeMsgWhole, hserial]
    dsimp only
    rw [failed_pendingId hserial, engage_unchanged_iff hnumbered]
  · exact throughout_iff_along (I := fun r => r.handle.pc.isTransfer = false)
      (fun _ e h _ _ => between_step h e) (fun _ e h hd => delivered_step_iff h hd e) rfl
      fun h => by cases h

theorem failed_unchanged_of_version :
    ((writeMsgWhole mcuHandleInit (encodeJoin 1 msgIdVersion [protocolVersion]) .interrupt
        none).pendingId = mcuHandleInit.pendingId ↔ isEngaged mcuHandleInit.pendingId = true) ∧
      (Throughout startStep Delivered startInit
          [.message (encodeJoin 1 msgIdVersion [protocolVersion]), .part none] ↔
        Along startStep Sends startInit
          [.message (encodeJoin 1 msgIdVersion [protocolVersion]), .part none]) :=
  failed_unchanged_iff rfl (by decide) mcuHandleInit .interrupt _

/-- The first message, with its transfer failing: the block waits for the reply
to a message that is nowhere. -/
theorem failed_engages :
    ((writeMsgWhole mcuHandleInit (encodeJoin 1 msgIdVersion [protocolVersion]) .interrupt
        none).pendingId = 1 ∧ mcuHandleInit.pendingId = serialIdToIgnore) ∧
      ¬ Delivered (run startStep startInit
        [.message (encodeJoin 1 msgIdVersion [protocolVersion]), .part none, .part none,
          .part none, .part none]) := by
  refine ⟨by decide, fun h => ?_⟩
  obtain ⟨out, hlast, -⟩ := h (by decide)
  have hfailed : ((run startStep startInit
      [.message (encodeJoin 1 msgIdVersion [protocolVersion]), .part none, .part none,
        .part none, .part none]).ioctls.filter isNumbered).getLast? =
      some (encodeWrap (encodeJoin 1 msgIdVersion [protocolVersion]), false) := by decide
  rw [hfailed] at hlast
  exact absurd (congrArg Prod.snd (Option.some.inj hlast)) (by simp)

end LedServer.Mcu
