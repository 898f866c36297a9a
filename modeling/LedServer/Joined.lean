import LedServer.AvrLoop
import LedServer.DecodeStream
import LedServer.McuHandle
import LedServer.PiHandleStep

set_option autoImplicit false

/-!
# The two machines on one wire

`mcu_handle_t` and the AVR, byte by byte. A transfer puts one byte after the other
on the wire, and each brings back what the AVR has in `SPDR`. What `handle_t`
pushes comes at any time.
-/
namespace LedServer
open Machine Mcu
open LedServer.Pi (Push)

structure Joined where
  avr : Avr.Cpu
  pi : McuHandle

inductive JoinedEvent where
  | main (e : Avr.MainEvent)
  | exchange
  | pi
  | push (p : Push)
  | interrupt (rised : Bool)

def joinedStep (t : Joined) : JoinedEvent → Joined
  | .main e => { t with avr := Avr.mainStep t.avr e }
  | .exchange =>
    match t.pi.out with
    | [] => t
    | b :: _ =>
      { avr := Avr.exchangeStep t.avr b
        pi := transferByte t.pi t.avr.state.link.spdr }
  | .pi => { t with pi := mcuStep t.pi }
  | .push p => { t with pi := { t.pi with toQueue := t.pi.toQueue ++ [p.message.body] } }
  | .interrupt rised =>
    { t with pi := { t.pi with interruptQueue := t.pi.interruptQueue ++ [rised] } }

/-- A new daemon, the AVR outside `decode_try`. -/
def joinedStart (s : Avr.State) : Joined := ⟨⟨s, .idle⟩, mcuHandleInit⟩

/-- The byte does not fill `read_buf` to capacity. -/
def ReadBelow (t : Joined) : JoinedEvent → Prop
  | .exchange => t.pi.out ≠ [] → t.avr.state.link.readBuf.contents.length + 1 < 255
  | _ => True

instance (t : Joined) : (e : JoinedEvent) → Decidable (ReadBelow t e)
  | .exchange => inferInstanceAs (Decidable (_ → _))
  | .main _ => .isTrue trivial
  | .pi => .isTrue trivial
  | .push _ => .isTrue trivial
  | .interrupt _ => .isTrue trivial

/-- Nothing has been received, the slot is empty, and of what is there to be
sent, all of it greetings, `SPDR` has no beginning. -/
structure Fresh (s : Avr.State) : Prop where
  readBuf : s.link.readBuf.contents = []
  decoded : s.decoder.decoded = 0
  inBuf : s.decoder.inBuf.length = Avr.inSize
  calls : ∀ m ∈ s.decoder.calls, m.payload.length ≤ Avr.inSize
  link : ∃ sent greeting, Avr.Flows s.link (sent ++ greeting) none ∧
    s.link.writeBuf.contents = greeting.flatMap Message.frame ∧
    ∀ m ∈ greeting, m.serial = serialIdToIgnore
  spdr : s.link.spdr ≠ eyeCatch

def numbered (m : Message) : Bool := m.serial ≠ serialIdToIgnore

/-! ### What the incoming bytes make of `mcu_handle_t` -/

/-- The serial that is waited for. -/
def awaited (pendingId : Byte) : List Byte :=
  if pendingId = serialIdToIgnore then [] else [pendingId]

theorem awaited_ignored : awaited serialIdToIgnore = [] := rfl

theorem awaited_of_ne {id : Byte} (h : id ≠ serialIdToIgnore) : awaited id = [id] := if_neg h

theorem pending_of_awaited {pendingId id : Byte} {later : List Byte}
    (h : id :: later = awaited pendingId) : pendingId = id ∧ later = [] := by
  unfold awaited at h
  split at h
  · cases h
  · obtain ⟨hid, hlater⟩ := List.cons.inj h
    exact ⟨hid.symm, hlater⟩

/-- A message with the serial waited for, or with the one to ignore, is let in. -/
theorem relax_awaited {pendingId : Byte} {m : Message} {later : List Byte}
    (h : (([m].filter numbered).map Message.serial) ++ later = awaited pendingId) :
    ∃ id, relax pendingId m.serial = (id, true) ∧ later = awaited id := by
  by_cases hz : m.serial = serialIdToIgnore
  · rw [List.filter_cons_of_neg (by simp [numbered, hz])] at h
    exact ⟨pendingId, by rw [hz]; exact relax_ignored pendingId, h⟩
  · rw [List.filter_cons_of_pos (by simp [numbered, hz])] at h
    have hnext : m.serial :: later = awaited pendingId := h
    obtain ⟨rfl, rfl⟩ := pending_of_awaited hnext
    exact ⟨serialIdToIgnore, relax_own _, awaited_ignored.symm⟩

/-- What messages that come in leave of the block, nothing when one is refused. -/
def relaxAll (pendingId : Byte) : List Message → Option Byte
  | [] => some pendingId
  | m :: ms =>
    match relax pendingId m.serial with
    | (id, true) => relaxAll id ms
    | (_, false) => none

section RelaxAll

variable {pendingId id : Byte} {m : Message}

theorem relaxAll_accepted (ms : List Message) (h : relax pendingId m.serial = (id, true)) :
    relaxAll pendingId (m :: ms) = relaxAll id ms := by
  rw [relaxAll, h]

theorem relaxAll_refused (ms : List Message) (h : relax pendingId m.serial = (id, false)) :
    relaxAll pendingId (m :: ms) = none := by
  rw [relaxAll, h]

end RelaxAll

/-- With no other numbers than the one waited for, none is refused. -/
theorem relaxAll_awaited {pendingId : Byte} {got : List Message} {later : List Byte}
    (h : (got.filter numbered).map Message.serial ++ later = awaited pendingId) :
    ∃ id, relaxAll pendingId got = some id ∧ later = awaited id := by
  induction got generalizing pendingId with
  | nil => exact ⟨pendingId, rfl, h⟩
  | cons k got ih =>
    have hsplit : ([k].filter numbered).map Message.serial ++
        ((got.filter numbered).map Message.serial ++ later) = awaited pendingId := by
      rw [← h, ← List.append_assoc, ← List.map_append, ← List.filter_append]
      rfl
    obtain ⟨id, hrelax, hlater⟩ := relax_awaited hsplit
    rw [relaxAll_accepted got hrelax]
    exact ih hlater

theorem foldl_readByte_thrown (bytes : List Byte) {m : McuHandle} (h : m.thrown = true) :
    bytes.foldl readByte m = m := by
  induction bytes with
  | nil => rfl
  | cons b bytes ih =>
    have hsame : readByte m b = m := by
      unfold readByte
      rw [if_pos h]
    rw [List.foldl_cons, hsame]
    exact ih

/-- The loop over `in_msg` hands over what the parser finds, or throws. -/
theorem foldl_readByte {bytes : List Byte} {m : McuHandle} {got : List Message}
    (hthrown : m.thrown = false)
    (hparse : (parse m.parseBuf bytes).2 = got.map Message.body) :
    (relaxAll m.pendingId got = none ∧ (bytes.foldl readByte m).thrown = true) ∨
      ∃ id, relaxAll m.pendingId got = some id ∧ bytes.foldl readByte m =
        { m with
          parseBuf := (parse m.parseBuf bytes).1
          fromQueue := m.fromQueue ++ got.map Message.body
          pendingId := id } := by
  induction bytes generalizing m got with
  | nil =>
    obtain rfl : got = [] := by simpa [parse] using hparse
    exact .inr ⟨m.pendingId, rfl, by simp [parse]⟩
  | cons b bytes ih =>
    have hcons : parse m.parseBuf (b :: bytes) =
        ((parse (mcuParsePush m.parseBuf b).1 bytes).1,
          (mcuParsePush m.parseBuf b).2.toList ++ (parse (mcuParsePush m.parseBuf b).1 bytes).2) :=
      rfl
    rw [hcons] at hparse ⊢
    rw [List.foldl_cons]
    rcases hp : mcuParsePush m.parseBuf b with ⟨buf, _ | msg⟩
    · rw [hp] at hparse
      rw [readByte_part hthrown hp]
      exact ih (m := { m with parseBuf := buf }) hthrown (by simpa using hparse)
    · rw [hp] at hparse
      cases got with
      | nil => simp at hparse
      | cons k got =>
        obtain ⟨hmsg, hrest⟩ := List.cons.inj (by simpa using hparse)
        rcases hrelax : relax m.pendingId k.serial with ⟨id, _ | _⟩
        · rw [readByte_refused hthrown (hmsg ▸ hp) hrelax, foldl_readByte_thrown bytes rfl]
          exact .inl ⟨relaxAll_refused got hrelax, rfl⟩
        · rw [readByte_message hthrown (hmsg ▸ hp) hrelax, relaxAll_accepted got hrelax]
          refine (ih (m := { m with
            parseBuf := buf
            pendingId := id
            fromQueue := m.fromQueue ++ [k.body] }) hthrown hrest).imp_right ?_
          rintro ⟨id', hrelaxed, hfold⟩
          refine ⟨id', hrelaxed, ?_⟩
          rw [hfold]
          simp

/-! ### The parts of `start` before a transfer -/

theorem writeMsg_body (m : McuHandle) (k : Message) (back : McuPc) {id : Byte}
    (he : engage m.pendingId k.serial = (id, false)) :
    writeMsg m k.body back =
      { m with pendingId := id, out := k.frame, inn := [], pc := .transfer back } := by
  unfold writeMsg
  rw [getSerial_body]
  dsimp only
  rw [he, Bool.or_false]
  rfl

/-- Nothing is put on the wire, or IDLE, or the next message of the queue when none
is waited for. -/
inductive McuMove (m : McuHandle) : McuHandle → Prop where
  | part (queue : List Bool) (rised : Bool) (pc : McuPc) :
      McuMove m { m with interruptQueue := queue, interruptRised := rised, pc := pc }
  | idle (back : McuPc) :
      McuMove m { m with
        out := (Message.mk serialIdToIgnore msgIdIdle []).frame
        inn := []
        pc := .transfer back }
  | pop (p : Push) (queue : List (List Byte)) (back : McuPc)
      (head : m.toQueue = p.message.body :: queue) (free : m.pendingId = serialIdToIgnore) :
      McuMove m { m with
        toQueue := queue
        pendingId := p.message.serial
        out := p.message.frame
        inn := []
        pc := .transfer back }

theorem mcuStep_move {m : McuHandle} (hthrown : m.thrown = false)
    (hqueue : ∀ msg ∈ m.toQueue, ∃ p : Push, msg = p.message.body)
    (hpc : ∀ back, m.pc ≠ .transfer back) : McuMove m (mcuStep m) := by
  unfold mcuStep
  rw [if_neg (by simp [hthrown])]
  cases h : m.pc with
  | interrupt =>
    dsimp only
    split
    · rw [show encodeJoin serialIdToIgnore msgIdIdle [] =
        (Message.mk serialIdToIgnore msgIdIdle []).body from rfl,
        writeMsg_body _ _ _ (engage_ignored m.pendingId)]
      exact .idle _
    · exact .part m.interruptQueue m.interruptRised _
  | popInterrupt => exact .part _ _ _
  | wait =>
    dsimp only
    split <;> exact .part m.interruptQueue m.interruptRised _
  | send =>
    dsimp only
    split
    · exact .part m.interruptQueue m.interruptRised _
    · rename_i hengaged
      have hfree : m.pendingId = serialIdToIgnore := by
        rw [isEngaged_iff] at hengaged
        exact not_not.mp hengaged
      split
      · exact .part m.interruptQueue m.interruptRised _
      · rename_i msg queue hq
        obtain ⟨p, rfl⟩ := hqueue msg (by rw [hq]; exact List.mem_cons_self)
        have hengage : engage m.pendingId p.message.serial = (p.message.serial, false) := by
          rw [hfree]
          exact engage_free
        rw [writeMsg_body { m with toQueue := queue, pc := .send } p.message .interrupt hengage]
        exact .pop p queue _ hq hfree
  | transfer back => exact absurd h (hpc back)

end LedServer
