import LedServer.Machine
import LedServer.AvrDecodeFlow
import LedServer.McuMessage

set_option autoImplicit false

/-!
# From `mcu::encode` to `decode`

Bytes arrive by interrupt between any two accesses of `decode_try` to `read_buf`.
-/
namespace LedServer.Avr
open AvrRing Machine FrameReader Mcu

inductive ReaderEvent where
  | arrive (b : Byte)
  | decodeStep

def readerStep (c : Cpu) : ReaderEvent → Cpu
  | .arrive b => { c with state := { c.state with link := spiStcVect c.state.link b } }
  | .decodeStep => decodeStep c

def arrivals : List ReaderEvent → List Byte
  | [] => []
  | .arrive b :: es => b :: arrivals es
  | .decodeStep :: es => arrivals es

/-- The arriving byte does not fill `read_buf` to capacity. -/
def ArrivalBelow (c : Cpu) : ReaderEvent → Prop
  | .arrive _ => c.state.link.readBuf.contents.length + 1 < 255
  | .decodeStep => True

instance (c : Cpu) (e : ReaderEvent) : Decidable (ArrivalBelow c e) := by
  cases e <;> unfold ArrivalBelow <;> infer_instance

/-! ### The count asked for -/

/-- The size byte of a payload about to be read counts the serial, the id and at
most `IN_SIZE` bytes more. -/
def PayloadFits (c : Cpu) : ReaderEvent → Prop
  | .arrive _ => True
  | .decodeStep => c.pc = .readPayload →
      2 ≤ c.state.decoder.msgSize.toNat ∧ c.state.decoder.msgSize.toNat ≤ inSize + 2

instance (c : Cpu) (e : ReaderEvent) : Decidable (PayloadFits c e) := by
  cases e <;> unfold PayloadFits <;> infer_instance

/-- No count passed to `spi_read_array` has exceeded the size of `in_buf`. -/
def RequestsFit (c : Cpu) : Prop := ∀ n ∈ c.state.decoder.requested, n.toNat ≤ inSize

theorem stepField_requested (flag : Byte) (store : Decoder → Byte → Decoder)
    (hstore : ∀ d b, (store d b).requested = d.requested) (s : State) :
    (stepField flag store s).state.decoder.requested = s.decoder.requested := by
  unfold stepField readSymbol
  cases (spiReadSymbol s.link).2 with
  | none => rfl
  | some symbol => exact hstore s.decoder symbol

theorem readPayload_requested (s : State) : (readPayload s).1.decoder.requested =
    s.decoder.requested ++ [s.decoder.msgSize - 2] := rfl

/-- One step asks for nothing, or for the payload of the frame at hand. -/
theorem decodeStep_requested (c : Cpu) :
    (decodeStep c).state.decoder.requested = c.state.decoder.requested ++
      if c.pc = .readPayload then [c.state.decoder.msgSize - 2] else [] := by
  obtain ⟨s, pc⟩ := c
  by_cases hpc : pc = .readPayload
  · subst hpc
    rw [if_pos rfl, ← readPayload_requested]
    unfold decodeStep
    rcases readPayload s with ⟨s', _ | _⟩
    · rfl
    · dsimp only
      rw [(decodeDone_incoming s').2]
      rfl
  · rw [if_neg hpc, List.append_nil]
    cases pc with
    | idle =>
      unfold decodeStep
      dsimp only
      split_ifs <;> rfl
    | readCatch =>
      unfold decodeStep readSymbol
      dsimp only
      cases (spiReadSymbol s.link).2 with
      | none => rfl
      | some symbol =>
        dsimp only
        split_ifs <;> rfl
    | readSize => exact stepField_requested _ storeSize (fun _ _ => rfl) s
    | readSerial => exact stepField_requested _ storeSerial (fun _ _ => rfl) s
    | readMsgId => exact stepField_requested _ storeMsgId (fun _ _ => rfl) s
    | readPayload => exact absurd rfl hpc

/-- The counts stay within `in_buf` throughout a run exactly when every payload
is read with a size byte from 2 to `IN_SIZE + 2`. -/
theorem requests_fit_iff (s : State) (h : s.decoder.requested = []) (es : List ReaderEvent) :
    Throughout readerStep RequestsFit ⟨s, .idle⟩ es ↔
      Along readerStep PayloadFits ⟨s, .idle⟩ es := by
  refine throughout_iff_along (I := fun _ => True) (fun _ _ _ _ _ => trivial)
    (fun c e _ hp => ?_) trivial (by simp [RequestsFit, h])
  cases e with
  | arrive b => exact iff_of_true hp trivial
  | decodeStep =>
    have hsub : ∀ n : Byte, (n - 2).toNat ≤ inSize ↔ 2 ≤ n.toNat ∧ n.toNat ≤ inSize + 2 := by
      intro n
      unfold inSize
      constructor
      · intro hle
        constructor <;> bv_omega
      · rintro ⟨hlo, hhi⟩
        bv_omega
    unfold RequestsFit readerStep PayloadFits
    rw [decodeStep_requested]
    by_cases hpc : c.pc = .readPayload
    · rw [if_pos hpc, ← hsub]
      constructor
      · intro hall _
        exact hall _ (by simp)
      · intro hle n hn
        rcases List.mem_append.mp hn with hn | hn
        · exact hp n hn
        · rw [List.mem_singleton.mp hn]
          exact hle hpc
    · rw [if_neg hpc, List.append_nil]
      exact iff_of_true hp fun hc => absurd hc hpc

/-- The bytes arrive one after the other, each followed by a step. -/
def arriveStep (bytes : List Byte) : List ReaderEvent :=
  bytes.flatMap fun b => [.arrive b, .decodeStep]

theorem requests_fit_idle_message :
    Throughout readerStep RequestsFit ⟨init, .idle⟩
      (arriveStep [eyeCatch, 2, 0, msgIdIdle] ++ List.replicate 3 ReaderEvent.decodeStep) :=
  (requests_fit_iff init rfl _).mpr (by decide +kernel)

/-- A size byte of 29 asks for 27 bytes, one of 1 for 255. -/
theorem request_exceeds_in_buf :
    (run readerStep ⟨init, .idle⟩
        (arriveStep [eyeCatch, 29, 1, msgIdLedArray] ++
          List.replicate 3 ReaderEvent.decodeStep)).state.decoder.requested = [27] ∧
      (run readerStep ⟨init, .idle⟩
        (arriveStep [eyeCatch, 1, 1, msgIdLedArray] ++
          List.replicate 3 ReaderEvent.decodeStep)).state.decoder.requested = [255] := by
  decide +kernel

/-! ### The messages decoded -/

/-- The phase the decoder's variables stand for. -/
def phaseOf (d : Decoder) : Phase :=
  if d.decoded = 0 then .seek
  else if d.decoded &&& sizeDecoded = 0 then .size
  else if d.decoded &&& serialDecoded = 0 then .serial d.msgSize
  else if d.decoded &&& msgIdDecoded = 0 then .msgId d.msgSize d.msgSerial
  else .payload d.msgSize d.msgSerial d.msgId []

/-- The flags are set in their order. -/
def Ordered (decoded : Byte) : Prop :=
  decoded = 0 ∨ decoded = 1 ∨ decoded = 3 ∨ decoded = 7 ∨ decoded = 15

section Flags

variable {d : Decoder}

theorem phaseOf_seek (h : d.decoded = 0) : phaseOf d = .seek := by
  simp [phaseOf, h]

theorem phaseOf_size (h : d.decoded = 1) : phaseOf d = .size := by
  simp [phaseOf, h, sizeDecoded]

theorem phaseOf_serial (h : d.decoded = 3) : phaseOf d = .serial d.msgSize := by
  simp [phaseOf, h, sizeDecoded, serialDecoded]

theorem phaseOf_msgId (h : d.decoded = 7) : phaseOf d = .msgId d.msgSize d.msgSerial := by
  simp [phaseOf, h, sizeDecoded, serialDecoded, msgIdDecoded]

theorem phaseOf_payload (h : d.decoded = 15) :
    phaseOf d = .payload d.msgSize d.msgSerial d.msgId [] := by
  simp [phaseOf, h, sizeDecoded, serialDecoded, msgIdDecoded]

end Flags

/-- The decoder in phase `p`, with `coming` still to arrive, is on its way to
having decoded `ms`. -/
structure Reads (ms : List Message) (coming : List Byte) (c : Cpu) : Prop where
  valid : c.state.link.readBuf.Valid
  inBuf : c.state.decoder.inBuf.length = inSize
  flags : Ordered c.state.decoder.decoded
  place : c.pc = .idle ∨ c.pc = nextPc c.state.decoder.decoded
  due : c.pc = .idle → (settle (phaseOf c.state.decoder)).2 = []
  seek : (readFrom (phaseOf c.state.decoder) (c.state.link.readBuf.contents ++ coming)).1 = .seek
  stream : c.state.decoder.calls ++
    (readFrom (phaseOf c.state.decoder) (c.state.link.readBuf.contents ++ coming)).2 = ms

theorem readSymbol_cons {s : State} (h : s.link.readBuf.Valid) {b : Byte} {rest : List Byte}
    (hc : s.link.readBuf.contents = b :: rest) :
    ∃ buf : Buffer, readSymbol s = ({ s with link := { s.link with readBuf := buf } }, some b) ∧
      buf.Valid ∧ buf.contents = rest := by
  obtain ⟨buf, hdrain, hv, hr⟩ := bufferByteDrain_cons h hc
  exact ⟨buf, by unfold readSymbol spiReadSymbol; rw [hdrain], hv, hr⟩

theorem readSymbol_nil {s : State} (h : s.link.readBuf.contents = []) :
    readSymbol s = (s, none) := by
  unfold readSymbol spiReadSymbol
  rw [bufferByteDrain_nil h]

/-- The decoder after a header byte. -/
def takeSymbol (d : Decoder) (b : Byte) : Decoder :=
  match nextPc d.decoded with
  | .readCatch => if b ≠ eyeCatch then d else { d with decoded := d.decoded ||| catchDecoded }
  | .readSize => { d with msgSize := b, decoded := d.decoded ||| sizeDecoded }
  | .readSerial => { d with msgSerial := b, decoded := d.decoded ||| serialDecoded }
  | .readMsgId => { d with msgId := b, decoded := d.decoded ||| msgIdDecoded }
  | _ => d

/-- An access that finds a header byte. -/
theorem decodeStep_cons {c : Cpu} (hv : c.state.link.readBuf.Valid)
    (hpc : c.pc = nextPc c.state.decoder.decoded) (hne : c.pc ≠ .readPayload)
    {b : Byte} {rest : List Byte} (hc : c.state.link.readBuf.contents = b :: rest) :
    ∃ (buf : Buffer) (pc : DecodePc), decodeStep c = ⟨{ c.state with
        link := { c.state.link with readBuf := buf }
        decoder := takeSymbol c.state.decoder b }, pc⟩ ∧
      buf.Valid ∧ buf.contents = rest ∧
      (pc = .idle ∧ takeSymbol c.state.decoder b = c.state.decoder ∨
        pc = nextPc (takeSymbol c.state.decoder b).decoded) := by
  obtain ⟨s, pc⟩ := c
  dsimp only at hv hpc hne hc ⊢
  obtain ⟨buf, hread, hbv, hbr⟩ := readSymbol_cons hv hc
  subst hpc
  cases hnext : nextPc s.decoder.decoded with
  | idle =>
    unfold nextPc at hnext
    split_ifs at hnext
  | readCatch =>
    have htake : takeSymbol s.decoder b =
        if b ≠ eyeCatch then s.decoder
        else { s.decoder with decoded := s.decoder.decoded ||| catchDecoded } := by
      simp only [takeSymbol, hnext]
    unfold decodeStep
    simp only [hread, htake]
    by_cases hb : b ≠ eyeCatch
    · rw [if_pos hb, if_pos hb]
      exact ⟨buf, .idle, rfl, hbv, hbr, .inl ⟨rfl, rfl⟩⟩
    · rw [if_neg hb, if_neg hb]
      exact ⟨buf, _, rfl, hbv, hbr, .inr rfl⟩
  | readSize =>
    have htake : takeSymbol s.decoder b =
        { s.decoder with msgSize := b, decoded := s.decoder.decoded ||| sizeDecoded } := by
      simp only [takeSymbol, hnext]
    unfold decodeStep stepField
    simp only [hread, htake]
    exact ⟨buf, _, rfl, hbv, hbr, .inr rfl⟩
  | readSerial =>
    have htake : takeSymbol s.decoder b =
        { s.decoder with msgSerial := b, decoded := s.decoder.decoded ||| serialDecoded } := by
      simp only [takeSymbol, hnext]
    unfold decodeStep stepField
    simp only [hread, htake]
    exact ⟨buf, _, rfl, hbv, hbr, .inr rfl⟩
  | readMsgId =>
    have htake : takeSymbol s.decoder b =
        { s.decoder with msgId := b, decoded := s.decoder.decoded ||| msgIdDecoded } := by
      simp only [takeSymbol, hnext]
    unfold decodeStep stepField
    simp only [hread, htake]
    exact ⟨buf, _, rfl, hbv, hbr, .inr rfl⟩
  | readPayload => exact absurd hnext hne

/-- A header byte takes the decoder to the reader's next phase. -/
theorem phaseOf_takeSymbol {d : Decoder} (hflags : Ordered d.decoded)
    (hne : nextPc d.decoded ≠ .readPayload) (b : Byte) :
    phaseOf (takeSymbol d b) = advance (phaseOf d) b ∧ Ordered (takeSymbol d b).decoded ∧
      settle (phaseOf d) = (phaseOf d, []) ∧
      (takeSymbol d b).calls = d.calls ∧ (takeSymbol d b).inBuf = d.inBuf := by
  rcases hflags with h | h | h | h | h
  · have htake : takeSymbol d b = if b ≠ eyeCatch then d else { d with decoded := 1 } := by
      rw [takeSymbol, h, show nextPc 0 = .readCatch by decide]
      rfl
    rw [htake, phaseOf_seek h]
    by_cases hb : b = eyeCatch
    · rw [if_neg (not_not.mpr hb), advance, if_pos hb]
      exact ⟨phaseOf_size rfl, .inr (.inl rfl), rfl, rfl, rfl⟩
    · rw [if_pos hb, advance, if_neg hb]
      exact ⟨phaseOf_seek h, .inl h, rfl, rfl, rfl⟩
  · have htake : takeSymbol d b = { d with msgSize := b, decoded := 3 } := by
      rw [takeSymbol, h, show nextPc 1 = .readSize by decide]
      rfl
    rw [htake, phaseOf_size h]
    exact ⟨phaseOf_serial rfl, .inr (.inr (.inl rfl)), rfl, rfl, rfl⟩
  · have htake : takeSymbol d b = { d with msgSerial := b, decoded := 7 } := by
      rw [takeSymbol, h, show nextPc 3 = .readSerial by decide]
      rfl
    rw [htake, phaseOf_serial h]
    exact ⟨phaseOf_msgId rfl, .inr (.inr (.inr (.inl rfl))), rfl, rfl, rfl⟩
  · have htake : takeSymbol d b = { d with msgId := b, decoded := 15 } := by
      rw [takeSymbol, h, show nextPc 7 = .readMsgId by decide]
      rfl
    rw [htake, phaseOf_msgId h]
    exact ⟨phaseOf_payload rfl, .inr (.inr (.inr (.inr rfl))), rfl, rfl, rfl⟩
  · rw [h] at hne
    exact absurd (by decide) hne

theorem nextPc_ne_idle (decoded : Byte) : nextPc decoded ≠ .idle := by
  unfold nextPc
  split_ifs <;> simp

theorem decoded_of_readPayload {decoded : Byte} (h : Ordered decoded)
    (hpc : nextPc decoded = .readPayload) : decoded = 15 := by
  rcases h with rfl | rfl | rfl | rfl | rfl
  case inr.inr.inr.inr => rfl
  all_goals exact absurd hpc (by decide)

/-- An access that finds nothing. -/
theorem decodeStep_nil {c : Cpu} (hpc : c.pc = nextPc c.state.decoder.decoded)
    (hne : c.pc ≠ .readPayload) (hc : c.state.link.readBuf.contents = []) :
    decodeStep c = ⟨c.state, .idle⟩ := by
  obtain ⟨s, pc⟩ := c
  have hread := readSymbol_nil hc
  unfold decodeStep stepField
  cases pc with
  | idle => exact absurd hpc.symm (nextPc_ne_idle _)
  | readPayload => exact absurd rfl hne
  | _ => simp only [hread]

/-- The payload read: `decode` is invoked and the decoder starts over. -/
theorem decodeStep_payload {c : Cpu} (hv : c.state.link.readBuf.Valid) (hpc : c.pc = .readPayload)
    (hin : c.state.decoder.inBuf.length = inSize) (hfit : need c.state.decoder.msgSize ≤ inSize)
    {payload rest : List Byte} (hc : c.state.link.readBuf.contents = payload ++ rest)
    (hlen : payload.length = need c.state.decoder.msgSize) :
    (decodeStep c).pc = .idle ∧ (decodeStep c).state.link.readBuf.Valid ∧
      (decodeStep c).state.link.readBuf.contents = rest ∧
      (decodeStep c).state.decoder.decoded = 0 ∧
      (decodeStep c).state.decoder.inBuf.length = inSize ∧
      (decodeStep c).state.decoder.calls = c.state.decoder.calls ++
        [⟨c.state.decoder.msgSerial, c.state.decoder.msgId, payload⟩] := by
  obtain ⟨s, pc⟩ := c
  dsimp only at hv hpc hin hfit hc hlen ⊢
  subst hpc
  have hheld : (s.decoder.msgSize - 2).toNat ≤ s.link.readBuf.contents.length := by
    rw [hc, List.length_append, hlen]
    exact Nat.le_add_right _ _
  obtain ⟨buf, hdrain, hbv, hbr⟩ := bufferArrayDrain_held hv s.decoder.inBuf
    (s.decoder.msgSize - 2) hheld
  have htake : s.link.readBuf.contents.take (s.decoder.msgSize - 2).toNat = payload := by
    rw [hc]
    exact List.take_left' hlen
  have hdrop : s.link.readBuf.contents.drop (s.decoder.msgSize - 2).toNat = rest := by
    rw [hc]
    exact List.drop_left' hlen
  rw [htake] at hdrain
  have hread : readPayload s = ({ s with
      link := { s.link with readBuf := buf }
      decoder := { s.decoder with
        inBuf := storeFrom s.decoder.inBuf 0 payload
        requested := s.decoder.requested ++ [s.decoder.msgSize - 2] } }, true) := by
    unfold readPayload spiReadArray
    rw [hdrain]
  have hstore : (storeFrom s.decoder.inBuf 0 payload).take (s.decoder.msgSize - 2).toNat =
      payload := by
    rw [storeFrom_eq _ _ _ (by rw [hin, hlen, Nat.zero_add]; exact hfit), List.take_zero,
      List.nil_append]
    exact List.take_left' hlen
  obtain ⟨hbuf, hdec⟩ := decodeDone_incoming { s with
      link := { s.link with readBuf := buf }
      decoder := { s.decoder with
        inBuf := storeFrom s.decoder.inBuf 0 payload
        requested := s.decoder.requested ++ [s.decoder.msgSize - 2] } }
  have hstep : decodeStep ⟨s, .readPayload⟩ = ⟨decodeDone { s with
      link := { s.link with readBuf := buf }
      decoder := { s.decoder with
        inBuf := storeFrom s.decoder.inBuf 0 payload
        requested := s.decoder.requested ++ [s.decoder.msgSize - 2] } }, .idle⟩ := by
    unfold decodeStep
    simp only [hread]
  rw [hstep]
  dsimp only
  rw [hbuf, hdec]
  refine ⟨rfl, hbv, hbr.trans hdrop, rfl, ?_, ?_⟩
  · exact (storeFrom_length _ _ _).trans hin
  · simp only [decodeInit, decodedMessage, hstore]

/-- Too little has arrived: the step changes nothing but the place. -/
theorem decodeStep_short {c : Cpu} (hpc : c.pc = .readPayload)
    (hshort : ¬ need c.state.decoder.msgSize ≤ c.state.link.readBuf.contents.length) :
    (decodeStep c).pc = .idle ∧ (decodeStep c).state.link = c.state.link ∧
      (decodeStep c).state.decoder = { c.state.decoder with
        requested := c.state.decoder.requested ++ [c.state.decoder.msgSize - 2] } := by
  obtain ⟨s, pc⟩ := c
  dsimp only at hpc hshort ⊢
  subst hpc
  have hread : readPayload s = ({ s with
      decoder := { s.decoder with
        requested := s.decoder.requested ++ [s.decoder.msgSize - 2] } }, false) := by
    unfold readPayload spiReadArray
    rw [bufferArrayDrain_short s.decoder.inBuf (s.decoder.msgSize - 2) hshort]
  unfold decodeStep
  simp only [hread, and_self]

/-! ### The invariant of a run -/

variable {ms : List Message} {coming : List Byte} {c : Cpu}

theorem Reads.calls_prefix (h : Reads ms coming c) : c.state.decoder.calls <+: ms :=
  ⟨_, h.stream⟩

theorem spiStcVect_readBuf {l : Link} (hv : l.readBuf.Valid) (b : Byte)
    (hkept : KeepsByte l.readBuf) :
    (spiStcVect l b).readBuf.Valid ∧
      (spiStcVect l b).readBuf.contents = l.readBuf.contents ++ [b] := by
  obtain ⟨buf, hfill, hbv, hbc⟩ := bufferByteFill_kept hv b hkept
  unfold spiStcVect
  simp only [hfill]
  rcases bufferByteDrain l.writeBuf with ⟨out, _ | toSend⟩ <;> exact ⟨hbv, hbc⟩

theorem Reads.arrive {b : Byte} (h : Reads ms (b :: coming) c)
    (hkept : KeepsByte c.state.link.readBuf) :
    Reads ms coming (readerStep c (.arrive b)) := by
  obtain ⟨hv, hc⟩ := spiStcVect_readBuf h.valid b hkept
  have happ : (readerStep c (.arrive b)).state.link.readBuf.contents ++ coming =
      c.state.link.readBuf.contents ++ b :: coming := by
    change (spiStcVect c.state.link b).readBuf.contents ++ coming = _
    rw [hc, List.append_assoc, List.singleton_append]
  refine ⟨hv, h.inBuf, h.flags, h.place, h.due, ?_, ?_⟩
  · rw [happ]; exact h.seek
  · rw [happ]; exact h.stream

/-- The payload a decoder waits for is one of the messages'. -/
theorem Reads.payload_split (h : Reads ms coming c) (hd : c.state.decoder.decoded = 15) :
    ∃ payload rest, c.state.link.readBuf.contents ++ coming = payload ++ rest ∧
      payload.length = need c.state.decoder.msgSize ∧
      (⟨c.state.decoder.msgSerial, c.state.decoder.msgId, payload⟩ : Message) ∈ ms := by
  have hseek := h.seek
  have hstream := h.stream
  rw [phaseOf_payload hd] at hseek hstream
  have hneed := readFrom_payload_seek (Nat.zero_le _) hseek
  rw [List.length_nil, Nat.zero_add] at hneed
  have hsplit := List.take_append_drop (need c.state.decoder.msgSize)
    (c.state.link.readBuf.contents ++ coming)
  have hlen : ((c.state.link.readBuf.contents ++ coming).take
      (need c.state.decoder.msgSize)).length = need c.state.decoder.msgSize := by
    rw [List.length_take]
    omega
  refine ⟨_, _, hsplit.symm, hlen, ?_⟩
  rw [← hsplit, readFrom_payload _ _ _ [] _ _ (by rw [List.length_nil, hlen, Nat.zero_add])]
    at hstream
  rw [← hstream, List.nil_append]
  simp

theorem Reads.step (h : Reads ms coming c) (small : ∀ m ∈ ms, m.payload.length ≤ inSize) :
    Reads ms coming (decodeStep c) := by
  by_cases hidle : c.pc = .idle
  · obtain ⟨s, pc⟩ := c
    dsimp only at hidle
    subst hidle
    unfold decodeStep
    dsimp only
    split_ifs
    · exact h
    · exact ⟨h.valid, h.inBuf, h.flags, .inr rfl, fun hn => absurd hn (nextPc_ne_idle _), h.seek,
        h.stream⟩
  have hpc : c.pc = nextPc c.state.decoder.decoded := h.place.resolve_left hidle
  by_cases hpay : c.pc = .readPayload
  · have hd := decoded_of_readPayload h.flags (hpc ▸ hpay)
    obtain ⟨payload, rest, happ, hlen, hmem⟩ := h.payload_split hd
    have hfit : need c.state.decoder.msgSize ≤ inSize := hlen ▸ small _ hmem
    by_cases hheld : need c.state.decoder.msgSize ≤ c.state.link.readBuf.contents.length
    · have hprefix : payload <+: c.state.link.readBuf.contents :=
        List.prefix_of_prefix_length_le ⟨rest, happ.symm⟩ (List.prefix_append _ _)
          (by rw [hlen]; exact hheld)
      obtain ⟨left, hleft⟩ := hprefix
      obtain ⟨hpc', hv', hc', hd', hin', hcalls'⟩ :=
        decodeStep_payload h.valid hpay h.inBuf hfit hleft.symm hlen
      have hseek := h.seek
      have hstream := h.stream
      rw [phaseOf_payload hd, ← hleft, List.append_assoc,
        readFrom_payload _ _ _ [] _ _ (by rw [List.length_nil, hlen, Nat.zero_add])]
        at hseek hstream
      refine ⟨hv', hin', .inl hd', .inl hpc', fun _ => ?_, ?_, ?_⟩
      · rw [phaseOf_seek hd']; rfl
      · rw [phaseOf_seek hd', hc', readFrom_of_settled rfl]
        exact hseek
      · rw [phaseOf_seek hd', hc', hcalls', readFrom_of_settled rfl, List.append_assoc]
        exact hstream
    · obtain ⟨hpc', hl', hd'⟩ := decodeStep_short hpay hheld
      have hphase : phaseOf (decodeStep c).state.decoder = phaseOf c.state.decoder := by
        rw [hd', phaseOf_payload hd]
        exact phaseOf_payload hd
      refine ⟨by rw [hl']; exact h.valid, by rw [hd']; exact h.inBuf, by rw [hd']; exact h.flags,
        .inl hpc', fun _ => ?_, by rw [hphase, hl']; exact h.seek, ?_⟩
      · rw [hphase, phaseOf_payload hd]
        have hne : ¬ ([] : List Byte).length = need c.state.decoder.msgSize := by
          rw [List.length_nil]
          omega
        rw [settle, if_neg hne]
      · rw [hphase, hl', hd']
        exact h.stream
  · cases hc : c.state.link.readBuf.contents with
    | nil =>
      have hsettled := (phaseOf_takeSymbol h.flags (hpc ▸ hpay) 0).2.2.1
      rw [decodeStep_nil hpc hpay hc]
      exact ⟨h.valid, h.inBuf, h.flags, .inl rfl, fun _ => by rw [hsettled], h.seek, h.stream⟩
    | cons b rest =>
      obtain ⟨hphase, hord, hsettled, hcalls, hin⟩ :=
        phaseOf_takeSymbol h.flags (hpc ▸ hpay) b
      obtain ⟨buf, pc, heq, hbv, hbr, hplace⟩ := decodeStep_cons h.valid hpc hpay hc
      have hseek := h.seek
      have hstream := h.stream
      rw [hc, List.cons_append, readFrom_cons hsettled, ← hphase] at hseek hstream
      rw [heq]
      refine ⟨hbv, by dsimp only; rw [hin]; exact h.inBuf, hord, ?_, ?_, ?_, ?_⟩
      · rcases hplace with ⟨hi, -⟩ | hn
        · exact .inl hi
        · exact .inr hn
      · intro hi
        rcases hplace with ⟨-, hsame⟩ | hn
        · dsimp only
          rw [hsame, hsettled]
        · exact absurd (hn.symm.trans hi) (nextPc_ne_idle _)
      · dsimp only; rw [hbr]; exact hseek
      · dsimp only; rw [hbr, hcalls]; exact hstream

/-! ### Everything that has arrived is decoded -/

/-- Bounds the accesses left to make once nothing more arrives. -/
def effort (c : Cpu) : ℕ :=
  3 * c.state.link.readBuf.contents.length +
    match c.pc with
    | .idle =>
      if c.state.decoder.decoded = 15 then 3
      else if c.state.link.readBuf.contents = [] then 0 else 1
    | .readPayload => 2
    | _ => if c.state.link.readBuf.contents = [] then 1 else 0

theorem effort_idle_le {c : Cpu} (hpc : c.pc = .idle) (hd : c.state.decoder.decoded ≠ 15) :
    effort c ≤ 3 * c.state.link.readBuf.contents.length + 1 := by
  unfold effort
  rw [hpc]
  dsimp only
  rw [if_neg hd]
  split_ifs <;> omega

theorem effort_busy_le {c : Cpu} (hpc : c.pc ≠ .idle) :
    effort c ≤ 3 * c.state.link.readBuf.contents.length + 2 := by
  unfold effort
  cases h : c.pc <;> dsimp only
  case idle => exact absurd h hpc
  case readPayload => exact le_refl _
  all_goals split_ifs <;> omega

theorem Reads.effort_lt (h : Reads ms [] c) (small : ∀ m ∈ ms, m.payload.length ≤ inSize)
    (hpos : effort c ≠ 0) : effort (decodeStep c) < effort c := by
  by_cases hidle : c.pc = .idle
  · obtain ⟨s, pc⟩ := c
    dsimp only at hidle
    subst hidle
    have hne : s.link.readBuf.contents ≠ [] := by
      intro hc
      by_cases hd : s.decoder.decoded = 15
      · -- a payload waited for is not empty
        obtain ⟨payload, rest, happ, hlen, -⟩ := h.payload_split hd
        dsimp only at happ hlen
        rw [hc, List.append_nil, eq_comm, List.append_eq_nil_iff] at happ
        have hdue := h.due rfl
        dsimp only at hdue
        rw [phaseOf_payload hd, settle, if_pos (by rw [← hlen, happ.1])] at hdue
        exact absurd hdue (by simp)
      · unfold effort at hpos
        dsimp only at hpos
        rw [if_neg hd, if_pos hc, hc] at hpos
        exact hpos rfl
    have hsize : ¬ spiReadSize s.link = 0 := by
      intro hz
      have hcount : s.link.readBuf.count = 0 := by
        rw [← bufferSize_toNat]
        exact congrArg BitVec.toNat hz
      rw [← contents_length, List.length_eq_zero_iff] at hcount
      exact hne hcount
    unfold decodeStep
    dsimp only
    rw [if_neg hsize]
    by_cases hd : s.decoder.decoded = 15
    · rw [hd, show nextPc 15 = .readPayload by decide]
      simp [effort, hd]
    · unfold effort
      dsimp only
      rw [if_neg hd, if_neg hne]
      cases hn : nextPc s.decoder.decoded <;> dsimp only
      case idle => exact absurd hn (nextPc_ne_idle _)
      case readPayload => exact absurd (decoded_of_readPayload h.flags hn) hd
      all_goals rw [if_neg hne]; omega
  have hpc : c.pc = nextPc c.state.decoder.decoded := h.place.resolve_left hidle
  by_cases hpay : c.pc = .readPayload
  · have hd := decoded_of_readPayload h.flags (hpc ▸ hpay)
    obtain ⟨payload, rest, happ, hlen, hmem⟩ := h.payload_split hd
    rw [List.append_nil] at happ
    obtain ⟨hpc', -, hc', hd', -, -⟩ :=
      decodeStep_payload h.valid hpay h.inBuf (hlen ▸ small _ hmem) happ hlen
    have hle := effort_idle_le hpc' (by rw [hd']; decide)
    have heff : effort c = 3 * c.state.link.readBuf.contents.length + 2 := by
      unfold effort
      rw [hpay]
    rw [heff, happ, List.length_append]
    rw [hc'] at hle
    omega
  · have hd : c.state.decoder.decoded ≠ 15 := by
      intro hd
      rw [hd] at hpc
      exact hpay (hpc.trans (by decide))
    cases hc : c.state.link.readBuf.contents with
    | nil =>
      rw [decodeStep_nil hpc hpay hc]
      have hzero : effort ⟨c.state, .idle⟩ = 0 := by
        unfold effort
        dsimp only
        rw [if_neg hd, if_pos hc, hc]
        rfl
      rw [hzero]
      omega
    | cons b rest =>
      obtain ⟨buf, pc, heq, -, hbr, hplace⟩ := decodeStep_cons h.valid hpc hpay hc
      have hbefore : 3 * (rest.length + 1) ≤ effort c := by
        unfold effort
        rw [hc, List.length_cons]
        exact Nat.le_add_right _ _
      have hafter : effort (decodeStep c) ≤ 3 * rest.length + 2 := by
        rw [heq]
        rcases hplace with ⟨hi, hsame⟩ | hn
        · subst hi
          have hle := @effort_idle_le ⟨{ c.state with
            link := { c.state.link with readBuf := buf }
            decoder := takeSymbol c.state.decoder b }, .idle⟩ rfl (by
              dsimp only
              rw [hsame]
              exact hd)
          dsimp only at hle
          rw [hbr] at hle
          exact hle.trans (Nat.le_succ _)
        · have hle := @effort_busy_le ⟨{ c.state with
            link := { c.state.link with readBuf := buf }
            decoder := takeSymbol c.state.decoder b }, pc⟩ (by
              dsimp only
              rw [hn]
              exact nextPc_ne_idle _)
          dsimp only at hle
          rw [hbr] at hle
          exact hle
      omega

/-- With nothing left to do the loop stays where it is and all is decoded. -/
theorem Reads.done (h : Reads ms [] c) (hzero : effort c = 0) :
    c.state.decoder.calls = ms ∧ decodeStep c = c := by
  obtain ⟨s, pc⟩ := c
  have hc : s.link.readBuf.contents = [] := by
    unfold effort at hzero
    rw [Nat.add_eq_zero_iff] at hzero
    exact List.length_eq_zero_iff.mp (by have := hzero.1; dsimp only at this; omega)
  have hpc : pc = .idle := by
    by_contra hpc
    have hz := (Nat.add_eq_zero_iff.mp hzero).2
    cases pc <;> simp_all
  subst hpc
  constructor
  · have hdue := h.due rfl
    have hstream := h.stream
    dsimp only at hdue hstream ⊢
    rw [hc, List.nil_append, readFrom, hdue] at hstream
    simpa [FrameReader.read] using hstream
  · have hsize : spiReadSize s.link = 0 := by
      have hcount : s.link.readBuf.count = 0 := by rw [← contents_length, hc]; rfl
      exact BitVec.eq_of_toNat_eq hcount
    unfold decodeStep
    dsimp only
    rw [if_pos hsize]

theorem Reads.eventually (h : Reads ms [] c) (small : ∀ m ∈ ms, m.payload.length ≤ inSize) :
    ∃ k, ∀ j, k ≤ j → (decodeStep^[j] c).state.decoder.calls = ms := by
  induction hn : effort c using Nat.strong_induction_on generalizing c with
  | _ n ih =>
    subst hn
    by_cases hzero : effort c = 0
    · obtain ⟨hcalls, hfix⟩ := h.done hzero
      refine ⟨0, fun j _ => ?_⟩
      rw [Function.iterate_fixed hfix]
      exact hcalls
    · obtain ⟨k, hk⟩ := ih _ (h.effort_lt small hzero) (h.step small) rfl
      refine ⟨k + 1, fun j hj => ?_⟩
      obtain ⟨i, rfl⟩ : ∃ i, j = i + 1 := ⟨j - 1, by omega⟩
      rw [Function.iterate_succ_apply]
      exact hk i (by omega)

/-- The main loop outside `decode_try` with nothing received and nothing decoded. -/
structure FreshReader (s : State) : Prop where
  valid : s.link.readBuf.Valid
  empty : s.link.readBuf.contents = []
  decoded : s.decoder.decoded = 0
  inBuf : s.decoder.inBuf.length = inSize
  calls : s.decoder.calls = []

theorem init_freshReader : FreshReader init := by
  have hl : init.link = linkInit := modeSet_link _ _
  have hd : init.decoder = decodeInit decoderPower := modeSet_decoder _ _
  refine ⟨?_, ?_, ?_, ?_, ?_⟩
  · rw [hl]; exact bufferInit_valid
  · rw [hl]; exact ringInit_contents 255
  all_goals rw [hd]; rfl

/-- What the Pi puts on the wire for a list of messages. -/
def wire (ms : List Message) : List Byte :=
  ms.flatMap fun m => encodeWrap (encodeJoin m.serial m.id m.payload)

theorem reads_run {s : State} (hs : FreshReader s)
    (small : ∀ m ∈ ms, m.payload.length ≤ inSize) (es : List ReaderEvent)
    (hstream : wire ms = arrivals es ++ coming)
    (h : Along readerStep ArrivalBelow ⟨s, .idle⟩ es) :
    Reads ms coming (run readerStep ⟨s, .idle⟩ es) := by
  have hstart : Reads ms (wire ms) ⟨s, .idle⟩ := by
    have hread : FrameReader.read .seek (wire ms) = (.seek, ms) := read_frames fun m hm =>
      lt_of_le_of_lt (small m hm) (by decide)
    refine ⟨hs.valid, hs.inBuf, .inl hs.decoded, .inl rfl, fun _ => ?_, ?_, ?_⟩
    all_goals dsimp only; rw [phaseOf_seek hs.decoded]
    · rfl
    · rw [hs.empty, List.nil_append, readFrom_of_settled rfl, hread]
    · rw [hs.empty, hs.calls, List.nil_append, List.nil_append, readFrom_of_settled rfl, hread]
  generalize (⟨s, .idle⟩ : Cpu) = c at hstart h
  rw [hstream] at hstart
  clear hstream
  induction es generalizing c with
  | nil => exact hstart
  | cons e es ih =>
    obtain ⟨hbelow, htail⟩ := h
    cases e with
    | arrive b => exact ih _ (hstart.arrive (keepsByte_of_below hbelow)) htail
    | decodeStep => exact ih _ (hstart.step small) htail

/-- However the bytes of a list of messages arrive between the accesses of
`decode_try`, `decode` is invoked with these messages in order, and once all
bytes have arrived with all of them. -/
theorem decoded_in_order {s : State} (hs : FreshReader s) (ms : List Message)
    (small : ∀ m ∈ ms, m.payload.length ≤ inSize) (es : List ReaderEvent)
    (hstream : arrivals es <+: wire ms) (h : Along readerStep ArrivalBelow ⟨s, .idle⟩ es) :
    (run readerStep ⟨s, .idle⟩ es).state.decoder.calls <+: ms ∧
      (arrivals es = wire ms → ∃ k, ∀ j, k ≤ j →
        (decodeStep^[j] (run readerStep ⟨s, .idle⟩ es)).state.decoder.calls = ms) := by
  obtain ⟨coming, hcoming⟩ := hstream
  have hreads := reads_run hs small es hcoming.symm h
  refine ⟨hreads.calls_prefix, fun hall => ?_⟩
  have hnone : coming = [] := by
    rw [hall] at hcoming
    exact List.append_right_eq_self.mp hcoming
  rw [hnone] at hreads
  exact hreads.eventually small

theorem decoded_in_order_of_clock :
    (run readerStep ⟨init, .idle⟩
        (arriveStep (wire [⟨7, msgIdSyncClock, [12, 30]⟩]))).state.decoder.calls <+:
      [⟨7, msgIdSyncClock, [12, 30]⟩] :=
  (decoded_in_order init_freshReader [⟨7, msgIdSyncClock, [12, 30]⟩] (by decide)
    (arriveStep (wire [⟨7, msgIdSyncClock, [12, 30]⟩])) (by decide +kernel)
    (by decide +kernel)).1

end LedServer.Avr
