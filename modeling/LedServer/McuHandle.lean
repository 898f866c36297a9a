import LedServer.McuMessage

set_option autoImplicit false

/-!
# `mcu-block.cpp` and `mcu-handle.cpp`

`start` is given part by part, and a transfer byte by byte: the bytes still to
be put on the wire, and those that have come back.
-/
namespace LedServer.Mcu

/-! ### `mcu_block_t` -/

def isEngaged (pendingId : Byte) : Bool := pendingId ≠ serialIdToIgnore

/-- The new `m_pending_id`, and whether another one was in the way. -/
def engage (pendingId id : Byte) : Byte × Bool :=
  if id = serialIdToIgnore then (pendingId, false)
  else if isEngaged pendingId = true ∧ pendingId ≠ id then (pendingId, true)
  else (id, false)

/-- The new `m_pending_id`, and what is returned. -/
def relax (pendingId id : Byte) : Byte × Bool :=
  if id = serialIdToIgnore ∨ isEngaged pendingId = false then (pendingId, true)
  else if pendingId ≠ id then (pendingId, false)
  else (serialIdToIgnore, true)

theorem isEngaged_iff (pendingId : Byte) :
    isEngaged pendingId = true ↔ pendingId ≠ serialIdToIgnore := by
  simp [isEngaged]

theorem engage_free {id : Byte} : engage serialIdToIgnore id = (id, false) := by
  unfold engage
  by_cases h : id = serialIdToIgnore
  · rw [if_pos h, h]
  · rw [if_neg h, if_neg (by simp [isEngaged])]

theorem engage_ignored (pendingId : Byte) :
    engage pendingId serialIdToIgnore = (pendingId, false) := if_pos rfl

theorem relax_ignored (pendingId : Byte) :
    relax pendingId serialIdToIgnore = (pendingId, true) := if_pos (.inl rfl)

theorem relax_own (id : Byte) : relax id id = (serialIdToIgnore, true) := by
  unfold relax
  by_cases h : id = serialIdToIgnore
  · rw [if_pos (.inl h), h]
  · rw [if_neg (by simp [isEngaged, h]), if_neg (by simp)]

/-! ### `mcu_handle_t` -/

/-- The numbered parts of `start`, and a transfer with the part behind it. -/
inductive McuPc where
  | interrupt | popInterrupt | wait | send
  | transfer (back : McuPc)
deriving DecidableEq, Repr

/-- `mcu_handle_t`, with the transfer under way. `mismatched` keeps whether
`engage` has met another id, `thrown` whether `write_msg` has thrown. -/
structure McuHandle where
  toQueue : List (List Byte)
  fromQueue : List (List Byte)
  interruptQueue : List Bool
  interruptRised : Bool
  pendingId : Byte
  parseBuf : List Byte
  pc : McuPc
  out : List Byte
  inn : List Byte
  mismatched : Bool
  thrown : Bool
deriving DecidableEq

def mcuHandleInit : McuHandle where
  toQueue := []
  fromQueue := []
  interruptQueue := []
  interruptRised := false
  pendingId := serialIdToIgnore
  parseBuf := []
  pc := .interrupt
  out := []
  inn := []
  mismatched := false
  thrown := false

/-- `write_msg` up to the transfer. -/
def writeMsg (m : McuHandle) (msgSrc : List Byte) (back : McuPc) : McuHandle :=
  match decodeGetSerial msgSrc with
  | none => { m with pc := back }
  | some serialId =>
    let (pendingId, mismatched) := engage m.pendingId serialId
    { m with
      pendingId := pendingId
      mismatched := m.mismatched || mismatched
      out := encodeWrap msgSrc
      inn := []
      pc := .transfer back }

/-- The loop over `in_msg`; nothing is read once it has thrown. -/
def readByte (m : McuHandle) (number : Byte) : McuHandle :=
  if m.thrown = true then m
  else
    match mcuParsePush m.parseBuf number with
    | (parseBuf, none) => { m with parseBuf := parseBuf }
    | (parseBuf, some msg) =>
      match decodeGetSerial msg with
      | none => { m with parseBuf := parseBuf }
      | some serial =>
        match relax m.pendingId serial with
        | (_, false) => { m with parseBuf := parseBuf, thrown := true }
        | (pendingId, true) =>
          { m with
            parseBuf := parseBuf
            pendingId := pendingId
            fromQueue := m.fromQueue ++ [msg] }

section ReadByte

variable {m : McuHandle} {b : Byte} {buf : List Byte}

/-- The byte completes no message. -/
theorem readByte_part (hthrown : m.thrown = false)
    (hp : mcuParsePush m.parseBuf b = (buf, none)) : readByte m b = { m with parseBuf := buf } := by
  unfold readByte
  rw [if_neg (by simp [hthrown]), hp]

theorem readByte_message {k : Message} {id : Byte} (hthrown : m.thrown = false)
    (hp : mcuParsePush m.parseBuf b = (buf, some k.body))
    (hrelax : relax m.pendingId k.serial = (id, true)) :
    readByte m b =
      { m with parseBuf := buf, pendingId := id, fromQueue := m.fromQueue ++ [k.body] } := by
  unfold readByte
  rw [if_neg (by simp [hthrown]), hp]
  dsimp only
  rw [getSerial_body]
  dsimp only
  rw [hrelax]

theorem readByte_refused {k : Message} {id : Byte} (hthrown : m.thrown = false)
    (hp : mcuParsePush m.parseBuf b = (buf, some k.body))
    (hrelax : relax m.pendingId k.serial = (id, false)) :
    readByte m b = { m with parseBuf := buf, thrown := true } := by
  unfold readByte
  rw [if_neg (by simp [hthrown]), hp]
  dsimp only
  rw [getSerial_body]
  dsimp only
  rw [hrelax]

end ReadByte

/-- `write_msg` behind the transfer. -/
def readMsg (m : McuHandle) (back : McuPc) : McuHandle :=
  { m.inn.foldl readByte m with inn := [], pc := back }

/-- The next part of `start`. In a transfer it waits for the last byte. -/
def mcuStep (m : McuHandle) : McuHandle :=
  if m.thrown = true then m
  else
    match m.pc with
    | .interrupt =>
      if m.interruptRised = true then
        writeMsg m (encodeJoin serialIdToIgnore msgIdIdle []) .popInterrupt
      else { m with pc := .popInterrupt }
    | .popInterrupt =>
      let rised := m.interruptQueue.head?.getD m.interruptRised
      { m with
        interruptQueue := m.interruptQueue.tail
        interruptRised := rised
        pc := if rised = true then .interrupt else .wait }
    | .wait =>
      if m.interruptQueue = [] ∧ (isEngaged m.pendingId = true ∨ m.toQueue = []) then
        { m with pc := .interrupt }
      else { m with pc := .send }
    | .send =>
      if isEngaged m.pendingId = true then { m with pc := .interrupt }
      else
        match m.toQueue with
        | [] => { m with pc := .interrupt }
        | msg :: rest => writeMsg { m with toQueue := rest } msg .interrupt
    | .transfer back => if m.out = [] then readMsg m back else m

/-- One byte of the transfer, `received` being what the slave had in `SPDR`. -/
def transferByte (m : McuHandle) (received : Byte) : McuHandle :=
  { m with out := m.out.tail, inn := m.inn ++ [received] }

end LedServer.Mcu
