import LedServer.DecodeStream
import LedServer.ReplyHold

set_option autoImplicit false

/-!
# What `decode` does with bytes of an earlier message

`in_buf` keeps what the last messages have left there, and `decode` looks at
fixed places of it.
-/
namespace LedServer.Avr
open AvrRing

/-- The call a branch of `decode` makes. The array is the part of `in_buf` that
`flush_shift_data` is given the size of. -/
inductive HandlerCall where
  | flushShiftData (arr : List Byte)
  | menuParameterName (parameter id : Byte)
  | menuParameterValue (parameter value min max : Byte)
  | watchSet (hour minute second : Byte)
  | modeSet (mode : Mode)
deriving DecidableEq

def handlerCall (d : Decoder) : Option HandlerCall :=
  if d.msgId = msgIdLedArray then some (.flushShiftData (d.inBuf.take (d.msgSize - 2).toNat))
  else if d.msgId = msgIdQueryName then some (.menuParameterName (inByte d 0) (inByte d 1))
  else if d.msgId = msgIdQueryNumber then
    some (.menuParameterValue (inByte d 0) (inByte d 1) (inByte d 2) (inByte d 3))
  else if d.msgId = msgIdSyncClock then some (.watchSet (inByte d 0) (inByte d 1) 0)
  else if d.msgId = msgIdHandshake then some (.modeSet .radio)
  else none

/-- A call and the status the reply to it has. -/
def perform (s : State) : HandlerCall → State × Byte
  | .flushShiftData arr =>
    let result := flushShiftData s.flush arr (BitVec.ofNat 8 arr.length)
    ({ s with flush := result.1 }, statusOf result.2)
  | .menuParameterName parameter id =>
    let result := menuParameterName s parameter id
    (result.1, statusOf result.2)
  | .menuParameterValue parameter value min max =>
    let result := menuParameterValue s parameter value min max
    (result.1, statusOf result.2)
  | .watchSet hour minute second =>
    ({ s with twi := watchSet s.twi hour minute second }, statusSuccess)
  | .modeSet mode => (modeSet s mode, statusSuccess)

def handled (s : State) : State × Byte :=
  match handlerCall s.decoder with
  | some call => perform s call
  | none => (s, statusUnknownMsg)

/-- What one message brings about: the call and the reply. -/
structure Effect where
  call : Option HandlerCall
  reply : Option Message
deriving DecidableEq

def effect (s : State) : Effect where
  call := handlerCall s.decoder
  reply :=
    if s.decoder.msgId = msgIdIdle ∨ s.decoder.msgId = msgIdHandshake then none
    else
      some ⟨s.decoder.msgSerial, msgIdStatus, [(handled (confirmed s)).2, s.decoder.msgId]⟩

/-- Another content of `in_buf`. -/
def leftover (s : State) (rest : List Byte) : State :=
  { s with decoder := { s.decoder with inBuf := rest } }

/-- `decode` is about to be invoked with a message. -/
def entry (s : State) (m : Message) : State := { s with decoder := arrive s.decoder m }

/-- The bytes of `in_buf` a handler looks at. -/
def bytesRead (msgId : Byte) : ℕ :=
  if msgId = msgIdQueryName then 2
  else if msgId = msgIdQueryNumber then 4
  else if msgId = msgIdSyncClock then 2
  else 0

/-! ### The effect is what `decode` does -/

theorem flushShiftData_take (f : Flush) (arr : List Byte) (n : Byte) :
    flushShiftData f arr n = flushShiftData f (arr.take n.toNat) n := by
  unfold flushShiftData
  rw [List.take_take, min_self, ← bufferArrayFill_take]

theorem perform_decoder (s : State) (call : HandlerCall) :
    (perform s call).1.decoder = s.decoder := by
  cases call with
  | flushShiftData arr => rfl
  | menuParameterName parameter id => exact (quiet_menuParameterName s parameter id).decoder
  | menuParameterValue parameter value min max =>
    exact (quiet_menuParameterValue s parameter value min max).decoder
  | watchSet hour minute second => rfl
  | modeSet mode => exact (quiet_modeSet s mode).decoder

theorem handled_decoder (s : State) : (handled s).1.decoder = s.decoder := by
  unfold handled
  cases handlerCall s.decoder with
  | none => rfl
  | some call => exact perform_decoder s call

theorem handled_some {s : State} {call : HandlerCall} (h : handlerCall s.decoder = some call) :
    handled (confirmed s) = perform (confirmed s) call := by
  have hcall : handlerCall (confirmed s).decoder = some call := h
  rw [handled, hcall]

theorem handled_none {s : State} (h : handlerCall s.decoder = none) :
    handled (confirmed s) = (confirmed s, statusUnknownMsg) := by
  have hcall : handlerCall (confirmed s).decoder = none := h
  rw [handled, hcall]

/-- All messages but two are replied to, with the status of the call. -/
theorem decode_handled {s : State}
    (hsize : (s.decoder.msgSize - 2).toNat ≤ s.decoder.inBuf.length) :
    decode s =
      if s.decoder.msgId = msgIdIdle ∨ s.decoder.msgId = msgIdHandshake then
        (handled (confirmed s)).1
      else reply (handled (confirmed s)).1 (handled (confirmed s)).2 s.decoder.msgId := by
  have hne : ∀ {id : Byte}, s.decoder.msgId = id → id ≠ msgIdIdle → id ≠ msgIdHandshake →
      ¬ (s.decoder.msgId = msgIdIdle ∨ s.decoder.msgId = msgIdHandshake) := by
    rintro id rfl hidle hshake
    exact not_or.mpr ⟨hidle, hshake⟩
  unfold decode
  dsimp only
  by_cases hled : s.decoder.msgId = msgIdLedArray
  · have hcall : handlerCall s.decoder = some (.flushShiftData
        (s.decoder.inBuf.take (s.decoder.msgSize - 2).toNat)) := if_pos hled
    have hlen : BitVec.ofNat 8 (s.decoder.inBuf.take (s.decoder.msgSize - 2).toNat).length =
        s.decoder.msgSize - 2 := by
      rw [List.length_take, Nat.min_eq_left hsize, BitVec.ofNat_toNat, BitVec.setWidth_eq]
    rw [if_pos hled, if_neg (hne hled (by decide) (by decide)), handled_some hcall, perform, hlen,
      flushShiftData_take]
    exact congrArg (reply _ _) hled.symm
  rw [if_neg hled]
  by_cases hname : s.decoder.msgId = msgIdQueryName
  · have hcall : handlerCall s.decoder = some (.menuParameterName (inByte s.decoder 0)
        (inByte s.decoder 1)) := by
      rw [handlerCall, if_neg hled, if_pos hname]
    rw [if_pos hname, if_neg (hne hname (by decide) (by decide)), handled_some hcall]
    rfl
  rw [if_neg hname]
  by_cases hnumber : s.decoder.msgId = msgIdQueryNumber
  · have hcall : handlerCall s.decoder = some (.menuParameterValue (inByte s.decoder 0)
        (inByte s.decoder 1) (inByte s.decoder 2) (inByte s.decoder 3)) := by
      rw [handlerCall, if_neg hled, if_neg hname, if_pos hnumber]
    rw [if_pos hnumber, if_neg (hne hnumber (by decide) (by decide)), handled_some hcall]
    rfl
  rw [if_neg hnumber]
  by_cases hclock : s.decoder.msgId = msgIdSyncClock
  · have hcall : handlerCall s.decoder = some (.watchSet (inByte s.decoder 0)
        (inByte s.decoder 1) 0) := by
      rw [handlerCall, if_neg hled, if_neg hname, if_neg hnumber, if_pos hclock]
    have hidle : ¬ s.decoder.msgId = msgIdIdle := by
      rw [hclock]
      decide
    rw [if_neg hidle, if_pos hclock, if_neg (hne hclock (by decide) (by decide)),
      handled_some hcall]
    exact congrArg (reply _ _) hclock.symm
  by_cases hshake : s.decoder.msgId = msgIdHandshake
  · have hcall : handlerCall s.decoder = some (.modeSet .radio) := by
      rw [handlerCall, if_neg hled, if_neg hname, if_neg hnumber, if_neg hclock, if_pos hshake]
    have hidle : ¬ s.decoder.msgId = msgIdIdle := by
      rw [hshake]
      decide
    rw [if_neg hidle, if_neg hclock, if_pos hshake, if_pos (.inr hshake), handled_some hcall]
    rfl
  have hcall : handlerCall s.decoder = none := by
    rw [handlerCall, if_neg hled, if_neg hname, if_neg hnumber, if_neg hclock, if_neg hshake]
  by_cases hidle : s.decoder.msgId = msgIdIdle
  · rw [if_pos hidle, if_pos (.inl hidle), handled_none hcall]
    rfl
  · rw [if_neg hidle, if_neg hclock, if_neg hshake, if_neg (not_or.mpr ⟨hidle, hshake⟩),
      handled_none hcall]
    rfl

/-- `decode` makes the call and hands the reply to `postpone_message`. -/
theorem decode_effect {s : State}
    (hsize : (s.decoder.msgSize - 2).toNat ≤ s.decoder.inBuf.length) :
    decode s =
      match (effect s).reply with
      | none => (handled (confirmed s)).1
      | some m => { (handled (confirmed s)).1 with
          link := postponeMessage (handled (confirmed s)).1.link m.frame m.serial } := by
  rw [decode_handled hsize, effect]
  by_cases hquiet : s.decoder.msgId = msgIdIdle ∨ s.decoder.msgId = msgIdHandshake
  · rw [if_pos hquiet, if_pos hquiet]
  · have hserial : (handled (confirmed s)).1.decoder.msgSerial = s.decoder.msgSerial := by
      rw [handled_decoder]
      rfl
    rw [if_neg hquiet, if_neg hquiet]
    dsimp only
    rw [← hserial]
    rfl

theorem menuParameterName_status (s s' : State) (parameter id : Byte) :
    (menuParameterName s parameter id).2 = (menuParameterName s' parameter id).2 := by
  unfold menuParameterName
  dsimp only
  split_ifs <;> rfl

theorem menuParameterValue_status (s s' : State) (parameter value min max : Byte) :
    (menuParameterValue s parameter value min max).2 =
      (menuParameterValue s' parameter value min max).2 := by
  unfold menuParameterValue
  dsimp only
  split_ifs <;> rfl

theorem perform_status {s s' : State} (h : s.flush = s'.flush) (call : HandlerCall) :
    (perform s call).2 = (perform s' call).2 := by
  cases call with
  | flushShiftData arr =>
    rw [perform, perform, h]
  | menuParameterName parameter id =>
    exact congrArg statusOf (menuParameterName_status s s' parameter id)
  | menuParameterValue parameter value min max =>
    exact congrArg statusOf (menuParameterValue_status s s' parameter value min max)
  | watchSet hour minute second => rfl
  | modeSet mode => rfl

theorem effect_congr {s s' : State} (hflush : s.flush = s'.flush)
    (hid : s.decoder.msgId = s'.decoder.msgId)
    (hserial : s.decoder.msgSerial = s'.decoder.msgSerial)
    (hcall : handlerCall s.decoder = handlerCall s'.decoder) : effect s = effect s' := by
  have hstatus : (handled (confirmed s)).2 = (handled (confirmed s')).2 := by
    cases h : handlerCall s.decoder with
    | none => rw [handled_none h, handled_none (hcall.symm.trans h)]
    | some call =>
      rw [handled_some h, handled_some (hcall.symm.trans h)]
      exact perform_status (show (confirmed s).flush = (confirmed s').flush from hflush) call
  rw [effect, effect, hcall, hid, hserial, hstatus]

/-- Some of `read_buf` has been read and the decoder has moved on. -/
def reading (s : State) (buf : Buffer) (d : Decoder) : State :=
  { s with link := { s.link with readBuf := buf }, decoder := d }

/-- A header field that has arrived. -/
theorem tryField_reading (flag : Byte) (store : Decoder → Byte → Decoder)
    (rest : State → State) (s : State) (d : Decoder) {buf : Buffer} (hv : buf.Valid) {b : Byte}
    {tail : List Byte} (hc : buf.contents = b :: tail) (hmiss : d.decoded &&& flag = 0)
    {decoded : Byte} (hflag : (store d b).decoded ||| flag = decoded) :
    ∃ buf' : Buffer, buf'.Valid ∧ buf'.contents = tail ∧
      tryField flag store rest (reading s buf d) =
        rest (reading s buf' { store d b with decoded := decoded }) := by
  obtain ⟨buf', hread, hbv, hbc⟩ := readSymbol_cons (s := reading s buf d) hv hc
  refine ⟨buf', hbv, hbc, ?_⟩
  rw [tryField]
  refine (if_pos hmiss).trans ?_
  rw [hread, ← hflag]
  rfl

theorem tryPayload_done {s s' : State} (h : readPayload s = (s', true)) :
    tryPayload s = decodeDone s' := by
  unfold tryPayload
  rw [h]

/-- One call of `decode_try` on a whole frame comes to `decode` with it. -/
theorem decodeTry_frame {s : State} {m : Message} {rest : List Byte}
    (hv : s.link.readBuf.Valid) (hc : s.link.readBuf.contents = m.frame ++ rest)
    (hseek : s.decoder.decoded = 0) (hin : s.decoder.inBuf.length = inSize)
    (fits : m.payload.length ≤ inSize) :
    ∃ e : State, decodeTry s = decodeDone e ∧ effect e = effect (entry s m) ∧
      e.link.readBuf.contents = rest := by
  have hsize : ¬ spiReadSize s.link = 0 := by
    intro hz
    have hcount : s.link.readBuf.count = 0 := by
      rw [← bufferSize_toNat]
      exact congrArg BitVec.toNat hz
    rw [← contents_length, hc, List.length_append, Message.frame_length] at hcount
    omega
  have hneed : (BitVec.ofNat 8 m.body.length - 2).toNat = m.payload.length := by
    rw [Message.body_length]
    unfold inSize at fits
    bv_omega
  obtain ⟨b1, h1, v1, c1⟩ := readSymbol_cons hv hc
  obtain ⟨b2, v2, c2, h2⟩ := tryField_reading sizeDecoded storeSize
    (tryField serialDecoded storeSerial (tryField msgIdDecoded storeMsgId tryPayload)) s
    { s.decoder with decoded := 1 } v1 c1 (show (1 : Byte) &&& sizeDecoded = 0 by decide)
    (show (1 : Byte) ||| sizeDecoded = 3 by decide)
  obtain ⟨b3, v3, c3, h3⟩ := tryField_reading serialDecoded storeSerial
    (tryField msgIdDecoded storeMsgId tryPayload) s
    { s.decoder with msgSize := BitVec.ofNat 8 m.body.length, decoded := 3 } v2 c2
    (show (3 : Byte) &&& serialDecoded = 0 by decide)
    (show (3 : Byte) ||| serialDecoded = 7 by decide)
  obtain ⟨b4, v4, c4, h4⟩ := tryField_reading msgIdDecoded storeMsgId tryPayload s
    { s.decoder with
      msgSize := BitVec.ofNat 8 m.body.length, msgSerial := m.serial, decoded := 7 } v3 c3
    (show (7 : Byte) &&& msgIdDecoded = 0 by decide)
    (show (7 : Byte) ||| msgIdDecoded = 15 by decide)
  change b4.contents = m.payload ++ rest at c4
  obtain ⟨b5, hdrain, -, c5⟩ := bufferArrayDrain_held v4 s.decoder.inBuf
    (BitVec.ofNat 8 m.body.length - 2) (by rw [c4, hneed, List.length_append]; omega)
  rw [c4, hneed, List.drop_left] at c5
  rw [c4, hneed, List.take_left, storeFrom_eq _ _ _ (by omega), List.take_zero, List.nil_append,
    Nat.zero_add] at hdrain
  refine ⟨reading s b5 { s.decoder with
      decoded := 15
      msgSize := BitVec.ofNat 8 m.body.length
      msgSerial := m.serial
      msgId := m.id
      inBuf := m.payload ++ s.decoder.inBuf.drop m.payload.length
      requested := s.decoder.requested ++ [BitVec.ofNat 8 m.body.length - 2] },
    ?_, effect_congr rfl rfl rfl rfl, c5⟩
  rw [decodeTry, if_neg hsize, if_pos hseek, h1]
  dsimp only
  rw [if_neg (not_not.mpr rfl), hseek, tryHeader]
  refine (h2.trans (h3.trans (h4.trans ?_)))
  have hpayload : readPayload (reading s b4 { s.decoder with
        msgSize := BitVec.ofNat 8 m.body.length
        msgSerial := m.serial
        msgId := m.id
        decoded := 15 }) =
      (reading s b5 { s.decoder with
        decoded := 15
        msgSize := BitVec.ofNat 8 m.body.length
        msgSerial := m.serial
        msgId := m.id
        inBuf := m.payload ++ s.decoder.inBuf.drop m.payload.length
        requested := s.decoder.requested ++ [BitVec.ofNat 8 m.body.length - 2] }, true) := by
    unfold readPayload spiReadArray reading
    dsimp only
    rw [hdrain]
  exact tryPayload_done hpayload

/-! ### What the effect depends on -/

/-- Behind the payload `in_buf` is what it was. -/
theorem inByte_arrive (d : Decoder) (m : Message) (i : ℕ) :
    inByte (arrive d m) i = if i < m.payload.length then m.payload.getD i 0 else inByte d i := by
  unfold inByte arrive
  dsimp only
  split_ifs with h
  · rw [List.getD_append _ _ _ _ h]
  · rw [List.getD_append_right _ _ _ _ (by omega), List.getD_eq_getElem?_getD,
      List.getElem?_drop, List.getD_eq_getElem?_getD]
    congr 3
    omega

theorem arrive_payload {m : Message} (fits : m.payload.length ≤ inSize) (d : Decoder) :
    (arrive d m).inBuf.take ((arrive d m).msgSize - 2).toNat = m.payload := by
  have hlen : (BitVec.ofNat 8 (m.payload.length + 2) - 2).toNat = m.payload.length := by
    unfold inSize at fits
    bv_omega
  change (m.payload ++ d.inBuf.drop m.payload.length).take _ = _
  change List.take (BitVec.ofNat 8 (m.payload.length + 2) - 2).toNat _ = _
  rw [hlen, List.take_left]

/-- A call is the bytes of `in_buf` that are looked at. -/
theorem handlerCall_iff {m : Message} (fits : m.payload.length ≤ inSize) (d d' : Decoder) :
    handlerCall (arrive d m) = handlerCall (arrive d' m) ↔
      ∀ i < bytesRead m.id, inByte (arrive d m) i = inByte (arrive d' m) i := by
  have htwo : ∀ {P : ℕ → Prop}, (∀ i < 2, P i) ↔ P 0 ∧ P 1 := by
    intro P
    refine ⟨fun h => ⟨h 0 (by omega), h 1 (by omega)⟩, fun h i hi => ?_⟩
    match i, hi with
    | 0, _ => exact h.1
    | 1, _ => exact h.2
  have hfour : ∀ {P : ℕ → Prop}, (∀ i < 4, P i) ↔ P 0 ∧ P 1 ∧ P 2 ∧ P 3 := by
    intro P
    refine ⟨fun h => ⟨h 0 (by omega), h 1 (by omega), h 2 (by omega), h 3 (by omega)⟩,
      fun h i hi => ?_⟩
    match i, hi with
    | 0, _ => exact h.1
    | 1, _ => exact h.2.1
    | 2, _ => exact h.2.2.1
    | 3, _ => exact h.2.2.2
  have hid : (arrive d m).msgId = m.id := rfl
  have hid' : (arrive d' m).msgId = m.id := rfl
  unfold handlerCall bytesRead
  rw [hid, hid', arrive_payload fits, arrive_payload fits]
  by_cases hled : m.id = msgIdLedArray
  · have hname : ¬ m.id = msgIdQueryName := by rw [hled]; decide
    have hnumber : ¬ m.id = msgIdQueryNumber := by rw [hled]; decide
    have hclock : ¬ m.id = msgIdSyncClock := by rw [hled]; decide
    simp only [if_pos hled, if_neg hname, if_neg hnumber, if_neg hclock, Nat.not_lt_zero,
      false_imp_iff, implies_true]
  by_cases hname : m.id = msgIdQueryName
  · simp only [if_neg hled, if_pos hname, htwo, Option.some.injEq,
      HandlerCall.menuParameterName.injEq]
  by_cases hnumber : m.id = msgIdQueryNumber
  · simp only [if_neg hled, if_neg hname, if_pos hnumber, hfour, Option.some.injEq,
      HandlerCall.menuParameterValue.injEq]
  by_cases hclock : m.id = msgIdSyncClock
  · simp only [if_neg hled, if_neg hname, if_neg hnumber, if_pos hclock, htwo, Option.some.injEq,
      HandlerCall.watchSet.injEq, and_true]
  · simp only [if_neg hled, if_neg hname, if_neg hnumber, if_neg hclock, Nat.not_lt_zero,
      false_imp_iff, implies_true]

/-- Two states that differ in what is left in `in_buf` bring a frame the same
effect if they agree on the bytes that are looked at behind its payload; all of
them do if the payload has what is looked at. -/
theorem effect_same_iff {s : State} {m : Message} (hin : s.decoder.inBuf.length = inSize)
    (fits : m.payload.length ≤ inSize) :
    (∀ rest : List Byte, rest.length = inSize →
      (effect (entry (leftover s rest) m) = effect (entry s m) ↔
        ∀ i, m.payload.length ≤ i → i < bytesRead m.id →
          rest.getD i 0 = s.decoder.inBuf.getD i 0)) ∧
      ((∀ rest : List Byte, rest.length = inSize →
        effect (entry (leftover s rest) m) = effect (entry s m)) ↔
          bytesRead m.id ≤ m.payload.length) := by
  have hsame : ∀ rest : List Byte,
      (effect (entry (leftover s rest) m) = effect (entry s m) ↔
        ∀ i, m.payload.length ≤ i → i < bytesRead m.id →
          rest.getD i 0 = s.decoder.inBuf.getD i 0) := by
    intro rest
    have hcall := handlerCall_iff fits (leftover s rest).decoder s.decoder
    have heffect : effect (entry (leftover s rest) m) = effect (entry s m) ↔
        handlerCall (arrive (leftover s rest).decoder m) = handlerCall (arrive s.decoder m) :=
      ⟨congrArg Effect.call, fun h => effect_congr rfl rfl rfl h⟩
    rw [heffect, hcall]
    constructor
    · intro h i hlow hi
      have hbyte := h i hi
      rwa [inByte_arrive, inByte_arrive, if_neg (by omega), if_neg (by omega)] at hbyte
    · intro h i hi
      rw [inByte_arrive, inByte_arrive]
      split_ifs with hlow
      · rfl
      · exact h i (by omega) hi
  refine ⟨fun rest _ => hsame rest, fun h => ?_, fun h rest _ => ?_⟩
  · by_contra hshort
    -- another byte where the payload ends
    have hlen : m.payload.length < inSize := by
      have hread : bytesRead m.id ≤ 4 := by
        unfold bytesRead
        split_ifs <;> omega
      unfold inSize
      omega
    have hother := (hsame _).mp (h (s.decoder.inBuf.set m.payload.length
      (s.decoder.inBuf.getD m.payload.length 0 + 1)) (by rw [List.length_set]; exact hin))
      m.payload.length le_rfl (by omega)
    rw [List.getD_eq_getElem?_getD, List.getElem?_set_self (by rw [hin]; exact hlen)] at hother
    exact absurd hother (by simp)
  · rw [hsame rest]
    intro i hlow hi
    omega

/-- The time of day, with both bytes it needs. -/
def clockMessage : Message := ⟨1, msgIdSyncClock, [12, 30]⟩

theorem effect_same_of_clock :
    (∀ rest : List Byte, rest.length = inSize →
      (effect (entry (leftover init rest) clockMessage) = effect (entry init clockMessage) ↔
        ∀ i, clockMessage.payload.length ≤ i → i < bytesRead clockMessage.id →
          rest.getD i 0 = init.decoder.inBuf.getD i 0)) ∧
      ((∀ rest : List Byte, rest.length = inSize →
        effect (entry (leftover init rest) clockMessage) = effect (entry init clockMessage)) ↔
          bytesRead clockMessage.id ≤ clockMessage.payload.length) :=
  effect_same_iff (by decide +kernel) (by decide)

/-- A volume without its value, minimum and maximum, which are then those of an
earlier message. -/
theorem leftover_taken :
    ¬ ∀ (s : State) (m : Message) (rest : List Byte), s.decoder.inBuf.length = inSize →
      m.payload.length ≤ inSize → rest.length = inSize →
      effect (entry (leftover s rest) m) = effect (entry s m) := by
  intro h
  have hcall := congrArg Effect.call (h init ⟨1, msgIdQueryNumber, [parameterVolume]⟩
    (List.replicate inSize 7) (by decide +kernel) (by decide) (by decide))
  have hdifferent : ¬ handlerCall (entry (leftover init (List.replicate inSize 7))
        ⟨1, msgIdQueryNumber, [parameterVolume]⟩).decoder =
      handlerCall (entry init ⟨1, msgIdQueryNumber, [parameterVolume]⟩).decoder := by
    decide +kernel
  exact hdifferent hcall

end LedServer.Avr
