import LedServer.AvrQuiet
import LedServer.FrameReader

set_option autoImplicit false

/-!
# What `decode_try` does to the incoming stream

The decoder's variables stand for a phase of the frame reader; the payload stays
in `read_buf` until all of it is there.
-/
namespace LedServer.Avr
open AvrRing FrameReader

/-! ### `decode` -/

/-- `decode` has an answer to all messages but these two. -/
def Answered (m : Message) : Prop := m.id ≠ msgIdIdle ∧ m.id ≠ msgIdHandshake

instance (m : Message) : Decidable (Answered m) := inferInstanceAs (Decidable (_ ∧ _))

theorem reply_link (s : State) (status msgId : Byte) :
    (reply s status msgId).link = postponeMessage s.link
      (Message.mk s.decoder.msgSerial msgIdStatus [status, msgId]).frame s.decoder.msgSerial := rfl

/-- The state in which `decode` comes to its `switch`. -/
def confirmed (s : State) : State := { s with
  heartbeat := heartbeatConfirm s.heartbeat
  decoder := { s.decoder with calls := s.decoder.calls ++ [decodedMessage s.decoder] } }

/-- The branches of `decode`. -/
inductive DecodeCase (s : State) : State → Prop where
  | ledArray (hid : s.decoder.msgId = msgIdLedArray) :
      DecodeCase s (reply
        { confirmed s with
          flush := (flushShiftData s.flush s.decoder.inBuf (s.decoder.msgSize - 2)).1 }
        (statusOf (flushShiftData s.flush s.decoder.inBuf (s.decoder.msgSize - 2)).2)
        s.decoder.msgId)
  | queryName (hid : s.decoder.msgId = msgIdQueryName) (status : Byte) :
      DecodeCase s (reply
        (menuParameterName (confirmed s) (inByte s.decoder 0) (inByte s.decoder 1)).1 status
        s.decoder.msgId)
  | queryNumber (hid : s.decoder.msgId = msgIdQueryNumber) (status : Byte) :
      DecodeCase s (reply
        (menuParameterValue (confirmed s) (inByte s.decoder 0) (inByte s.decoder 1)
          (inByte s.decoder 2) (inByte s.decoder 3)).1 status s.decoder.msgId)
  | idle (hid : s.decoder.msgId = msgIdIdle) : DecodeCase s (confirmed s)
  | syncClock (hid : s.decoder.msgId = msgIdSyncClock) :
      DecodeCase s (reply
        { confirmed s with
          twi := watchSet s.twi (inByte s.decoder 0) (inByte s.decoder 1) 0 }
        statusSuccess s.decoder.msgId)
  | handshake (hid : s.decoder.msgId = msgIdHandshake) :
      DecodeCase s (modeSet (confirmed s) .radio)
  | unknown (led : s.decoder.msgId ≠ msgIdLedArray) (name : s.decoder.msgId ≠ msgIdQueryName)
      (number : s.decoder.msgId ≠ msgIdQueryNumber) (idle : s.decoder.msgId ≠ msgIdIdle)
      (clock : s.decoder.msgId ≠ msgIdSyncClock) (shake : s.decoder.msgId ≠ msgIdHandshake) :
      DecodeCase s (reply (confirmed s) statusUnknownMsg s.decoder.msgId)

theorem decode_case (s : State) : DecodeCase s (decode s) := by
  unfold decode
  dsimp only
  by_cases hled : s.decoder.msgId = msgIdLedArray
  · have h := DecodeCase.ledArray hled
    rw [if_pos hled]
    rwa [hled] at h
  rw [if_neg hled]
  by_cases hname : s.decoder.msgId = msgIdQueryName
  · rw [if_pos hname]
    exact .queryName hname _
  rw [if_neg hname]
  by_cases hnumber : s.decoder.msgId = msgIdQueryNumber
  · rw [if_pos hnumber]
    exact .queryNumber hnumber _
  rw [if_neg hnumber]
  by_cases hidle : s.decoder.msgId = msgIdIdle
  · rw [if_pos hidle]
    exact .idle hidle
  rw [if_neg hidle]
  by_cases hclock : s.decoder.msgId = msgIdSyncClock
  · have h := DecodeCase.syncClock hclock
    rw [if_pos hclock]
    rwa [hclock] at h
  rw [if_neg hclock]
  by_cases hshake : s.decoder.msgId = msgIdHandshake
  · rw [if_pos hshake]
    exact .handshake hshake
  · rw [if_neg hshake]
    exact .unknown hled hname hnumber hidle hclock hshake

/-- `decode` confirms the heartbeat, acts, and for all messages but two replies
with the id of the message. The action is quiet, or `flush_shift_data`. -/
theorem decode_spec (s : State) : ∃ a : State,
    a.decoder = { s.decoder with calls := s.decoder.calls ++ [decodedMessage s.decoder] } ∧
    LinkQuiet s.link a.link ∧ (Wired s → Wired a) ∧
    ((s.decoder.msgId = msgIdLedArray ∧
        a.flush = (flushShiftData s.flush s.decoder.inBuf (s.decoder.msgSize - 2)).1 ∧
        decode s = reply a
          (statusOf (flushShiftData s.flush s.decoder.inBuf (s.decoder.msgSize - 2)).2)
          s.decoder.msgId) ∨
      (s.decoder.msgId ≠ msgIdLedArray ∧ FlushQuiet s.flush a.flush ∧
        ((s.decoder.msgId = msgIdIdle ∨ s.decoder.msgId = msgIdHandshake) ∧ decode s = a ∨
          s.decoder.msgId ≠ msgIdIdle ∧ s.decoder.msgId ≠ msgIdHandshake ∧
            ∃ status, decode s = reply a status s.decoder.msgId))) := by
  have hrefl := LinkQuiet.refl s.link
  have hwired : Wired s → Wired (confirmed s) := fun hw => hw.of_eq rfl
  have hother : ∀ {id id' : Byte}, s.decoder.msgId = id → id ≠ id' → s.decoder.msgId ≠ id' := by
    rintro id id' rfl hne
    exact hne
  have hcase := decode_case s
  generalize decode s = r at hcase ⊢
  cases hcase with
  | ledArray hid =>
    exact ⟨{ confirmed s with
      flush := (flushShiftData s.flush s.decoder.inBuf (s.decoder.msgSize - 2)).1 }, rfl, hrefl,
      fun hw => hw.of_eq rfl, .inl ⟨hid, rfl, rfl⟩⟩
  | queryName hid status =>
    have hq := quiet_menuParameterName (confirmed s) (inByte s.decoder 0) (inByte s.decoder 1)
    exact ⟨_, hq.decoder, hq.link, fun hw => hq.wired (hwired hw),
      .inr ⟨hother hid (by decide), hq.flush,
        .inr ⟨hother hid (by decide), hother hid (by decide), status, rfl⟩⟩⟩
  | queryNumber hid status =>
    have hq := quiet_menuParameterValue (confirmed s) (inByte s.decoder 0) (inByte s.decoder 1)
      (inByte s.decoder 2) (inByte s.decoder 3)
    exact ⟨_, hq.decoder, hq.link, fun hw => hq.wired (hwired hw),
      .inr ⟨hother hid (by decide), hq.flush,
        .inr ⟨hother hid (by decide), hother hid (by decide), status, rfl⟩⟩⟩
  | idle hid =>
    exact ⟨confirmed s, rfl, hrefl, hwired, .inr ⟨hother hid (by decide), FlushQuiet.refl _,
      .inl ⟨.inl hid, rfl⟩⟩⟩
  | syncClock hid =>
    exact ⟨{ confirmed s with
      twi := watchSet s.twi (inByte s.decoder 0) (inByte s.decoder 1) 0 }, rfl, hrefl,
      fun hw => hw.of_eq rfl, .inr ⟨hother hid (by decide), FlushQuiet.refl _,
        .inr ⟨hother hid (by decide), hother hid (by decide), statusSuccess, rfl⟩⟩⟩
  | handshake hid =>
    have hq := quiet_modeSet (confirmed s) .radio
    exact ⟨_, hq.decoder, hq.link, fun hw => hq.wired (hwired hw),
      .inr ⟨hother hid (by decide), hq.flush, .inl ⟨.inr hid, rfl⟩⟩⟩
  | unknown led name number idle clock shake =>
    exact ⟨confirmed s, rfl, hrefl, hwired, .inr ⟨led, FlushQuiet.refl _,
      .inr ⟨idle, shake, statusUnknownMsg, rfl⟩⟩⟩

/-- On the incoming side `decode` only records that it has been invoked. -/
theorem decode_incoming (s : State) :
    (decode s).link.readBuf = s.link.readBuf ∧
      (decode s).decoder =
        { s.decoder with calls := s.decoder.calls ++ [decodedMessage s.decoder] } := by
  obtain ⟨a, hd, hl, -, ⟨-, -, he⟩ | ⟨-, -, ⟨-, he⟩ | ⟨-, -, status, he⟩⟩⟩ := decode_spec s
  · rw [he]
    exact ⟨by rw [reply_link, postponeMessage_readBuf]; exact hl.readBuf, hd⟩
  · rw [he]
    exact ⟨hl.readBuf, hd⟩
  · rw [he]
    exact ⟨by rw [reply_link, postponeMessage_readBuf]; exact hl.readBuf, hd⟩

theorem decodeDone_incoming (s : State) :
    (decodeDone s).link.readBuf = s.link.readBuf ∧
      (decodeDone s).decoder = decodeInit
        { s.decoder with calls := s.decoder.calls ++ [decodedMessage s.decoder] } := by
  obtain ⟨hl, hd⟩ := decode_incoming s
  exact ⟨hl, by rw [← hd]; rfl⟩

/-! ### `decode_try` at once and access by access -/

/-- `decodeStep` until the main loop is outside `decode_try` again. -/
inductive DecodeRuns : Cpu → State → Prop where
  | done (s : State) : DecodeRuns ⟨s, .idle⟩ s
  | next {c : Cpu} {s : State} (h : c.pc ≠ .idle) (tail : DecodeRuns (decodeStep c) s) :
      DecodeRuns c s

theorem decodeRuns_payload (s : State) : DecodeRuns ⟨s, .readPayload⟩ (tryPayload s) := by
  refine .next (by simp) ?_
  unfold decodeStep tryPayload
  rcases readPayload s with ⟨s', _ | _⟩ <;> exact .done _

/-- One header field: the run from its access on is the run from the next one. -/
theorem decodeRuns_field {pc : DecodePc} {flag : Byte} {store : Decoder → Byte → Decoder}
    {rest : State → State} (s : State) (hpc : pc ≠ .idle)
    (hstep : decodeStep ⟨s, pc⟩ = stepField flag store s)
    (hstore : ∀ d b, (store d b).decoded = d.decoded)
    (hrest : ∀ s' : State, s'.decoder.decoded = s.decoder.decoded ||| flag →
      DecodeRuns ⟨s', nextPc s'.decoder.decoded⟩ (rest s'))
    (hmiss : s.decoder.decoded &&& flag = 0) :
    DecodeRuns ⟨s, pc⟩ (tryField flag store rest s) := by
  refine .next hpc ?_
  rw [hstep]
  unfold stepField tryField readSymbol
  rw [if_pos hmiss]
  cases (spiReadSymbol s.link).2 with
  | none => exact .done _
  | some symbol =>
    have hdecoded := hstore s.decoder symbol
    exact hrest _ (by rw [hdecoded])

theorem tryField_skip {flag : Byte} {store : Decoder → Byte → Decoder} {rest : State → State}
    {s : State} (h : s.decoder.decoded &&& flag ≠ 0) : tryField flag store rest s = rest s := by
  rw [tryField, if_neg h]

/-- A flag that is set stays set. -/
theorem or_and_ne_zero {d flag other : Byte} (h : d &&& other ≠ 0) :
    (d ||| flag) &&& other ≠ 0 := by
  intro hz
  apply h
  have hd : d &&& other = d &&& ((d ||| flag) &&& other) := by
    ext i
    simp only [BitVec.getElem_and, BitVec.getElem_or]
    grind
  rw [hd, hz]
  exact BitVec.and_zero

theorem or_flag_ne_zero {d flag : Byte} (h : flag ≠ 0) : (d ||| flag) &&& flag ≠ 0 := by
  intro hz
  apply h
  have hd : flag = (d ||| flag) &&& flag := by
    ext i
    simp only [BitVec.getElem_and, BitVec.getElem_or]
    grind
  rw [hd, hz]

theorem ne_zero_of_flag {d flag : Byte} (h : d &&& flag ≠ 0) : d ≠ 0 := by
  rintro rfl
  exact h BitVec.zero_and

theorem decodeRuns_msgId (s : State) (hsize : s.decoder.decoded &&& sizeDecoded ≠ 0)
    (hserial : s.decoder.decoded &&& serialDecoded ≠ 0) :
    DecodeRuns ⟨s, nextPc s.decoder.decoded⟩
      (tryField msgIdDecoded storeMsgId tryPayload s) := by
  rw [nextPc, if_neg (ne_zero_of_flag hsize), if_neg hsize, if_neg hserial]
  by_cases hmiss : s.decoder.decoded &&& msgIdDecoded = 0
  · rw [if_pos hmiss]
    refine decodeRuns_field s (by simp) rfl (fun _ _ => rfl) (fun s' hs' => ?_) hmiss
    have hflag : s'.decoder.decoded &&& msgIdDecoded ≠ 0 := by
      rw [hs']; exact or_flag_ne_zero (by decide)
    have hsize' : s'.decoder.decoded &&& sizeDecoded ≠ 0 := by
      rw [hs']; exact or_and_ne_zero hsize
    have hserial' : s'.decoder.decoded &&& serialDecoded ≠ 0 := by
      rw [hs']; exact or_and_ne_zero hserial
    rw [nextPc, if_neg (ne_zero_of_flag hflag), if_neg hsize', if_neg hserial', if_neg hflag]
    exact decodeRuns_payload s'
  · rw [if_neg hmiss, tryField_skip hmiss]
    exact decodeRuns_payload s

theorem decodeRuns_serial (s : State) (hsize : s.decoder.decoded &&& sizeDecoded ≠ 0) :
    DecodeRuns ⟨s, nextPc s.decoder.decoded⟩
      (tryField serialDecoded storeSerial (tryField msgIdDecoded storeMsgId tryPayload) s) := by
  by_cases hmiss : s.decoder.decoded &&& serialDecoded = 0
  · rw [nextPc, if_neg (ne_zero_of_flag hsize), if_neg hsize, if_pos hmiss]
    refine decodeRuns_field s (by simp) rfl (fun _ _ => rfl) (fun s' hs' => ?_) hmiss
    exact decodeRuns_msgId s' (by rw [hs']; exact or_and_ne_zero hsize)
      (by rw [hs']; exact or_flag_ne_zero (by decide))
  · rw [tryField_skip hmiss]
    exact decodeRuns_msgId s hsize hmiss

theorem decodeRuns_header (s : State) (h : s.decoder.decoded ≠ 0) :
    DecodeRuns ⟨s, nextPc s.decoder.decoded⟩ (tryHeader s) := by
  unfold tryHeader
  by_cases hmiss : s.decoder.decoded &&& sizeDecoded = 0
  · rw [nextPc, if_neg h, if_pos hmiss]
    refine decodeRuns_field s (by simp) rfl (fun _ _ => rfl) (fun s' hs' => ?_) hmiss
    exact decodeRuns_serial s' (by rw [hs']; exact or_flag_ne_zero (by decide))
  · rw [tryField_skip hmiss]
    exact decodeRuns_serial s hmiss

/-- `decode_try` is its accesses one after the other. -/
theorem decodeRuns_try (s : State) : DecodeRuns (decodeStep ⟨s, .idle⟩) (decodeTry s) := by
  unfold decodeTry
  rw [decodeStep]
  dsimp only
  by_cases hempty : spiReadSize s.link = 0
  · rw [if_pos hempty, if_pos hempty]
    exact .done s
  · rw [if_neg hempty, if_neg hempty]
    by_cases hseek : s.decoder.decoded = 0
    · rw [if_pos hseek, nextPc, if_pos hseek]
      refine .next (by simp) ?_
      rw [decodeStep]
      unfold readSymbol
      dsimp only
      cases (spiReadSymbol s.link).2 with
      | none => exact .done _
      | some symbol =>
        dsimp only
        split_ifs with hcatch
        · exact .done _
        · have hcaught : s.decoder.decoded ||| catchDecoded ≠ 0 := by
            rw [hseek]
            decide
          exact decodeRuns_header _ hcaught
    · rw [if_neg hseek]
      exact decodeRuns_header s hseek

end LedServer.Avr
