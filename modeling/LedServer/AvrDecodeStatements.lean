import LedServer.AvrLoop
import LedServer.DecodeStream

set_option autoImplicit false

/-!
# `INT3_vect` between the statements of `decode_try`

The handler runs `decode_init` while the main loop is on its way through the
header; what the main loop still does afterwards is for the frame thrown away.
-/
namespace LedServer.Avr
open AvrRing Machine FrameReader Mcu

inductive HeaderField where
  | size | serial | msgId
deriving DecidableEq, Repr

namespace HeaderField

def flag : HeaderField → Byte
  | size => sizeDecoded
  | serial => serialDecoded
  | msgId => msgIdDecoded

def store : HeaderField → Decoder → Byte → Decoder
  | size => storeSize
  | serial => storeSerial
  | msgId => storeMsgId

end HeaderField

/-- The statement of `decode_try` to be executed next; the last four are those
of `decode_init`. -/
inductive TryPc where
  | idle
  | testHeader
  | readCatch
  | testCatch (symbol : Byte)
  | markCatch
  | test (f : HeaderField)
  | read (f : HeaderField)
  | mark (f : HeaderField)
  | readPayload
  | decode
  | clearDecoded | clearSize | clearSerial | clearId
deriving DecidableEq, Repr

structure TryCpu where
  state : State
  pc : TryPc

def HeaderField.after : HeaderField → TryPc
  | size => .test serial
  | serial => .test msgId
  | msgId => .readPayload

def setDecoder (s : State) (d : Decoder) : State := { s with decoder := d }

def markFlag (s : State) (flag : Byte) : State :=
  setDecoder s { s.decoder with decoded := s.decoder.decoded ||| flag }

def tryStep (t : TryCpu) : TryCpu :=
  let s := t.state
  match t.pc with
  | .idle => if spiReadSize s.link = 0 then ⟨s, .idle⟩ else ⟨s, .testHeader⟩
  | .testHeader => if s.decoder.decoded = 0 then ⟨s, .readCatch⟩ else ⟨s, .test .size⟩
  | .readCatch =>
    match readSymbol s with
    | (s, none) => ⟨s, .idle⟩
    | (s, some symbol) => ⟨s, .testCatch symbol⟩
  | .testCatch symbol => if symbol ≠ eyeCatch then ⟨s, .idle⟩ else ⟨s, .markCatch⟩
  | .markCatch => ⟨markFlag s catchDecoded, .test .size⟩
  | .test f => if s.decoder.decoded &&& f.flag = 0 then ⟨s, .read f⟩ else ⟨s, f.after⟩
  | .read f =>
    match readSymbol s with
    | (s, none) => ⟨s, .idle⟩
    | (s, some symbol) => ⟨setDecoder s (f.store s.decoder symbol), .mark f⟩
  | .mark f => ⟨markFlag s f.flag, f.after⟩
  | .readPayload =>
    match readPayload s with
    | (s, false) => ⟨s, .idle⟩
    | (s, true) => ⟨s, .decode⟩
  | .decode => ⟨decode s, .clearDecoded⟩
  | .clearDecoded => ⟨setDecoder s { s.decoder with decoded := 0 }, .clearSize⟩
  | .clearSize => ⟨setDecoder s { s.decoder with msgSize := 0 }, .clearSerial⟩
  | .clearSerial => ⟨setDecoder s { s.decoder with msgSerial := 0 }, .clearId⟩
  | .clearId => ⟨setDecoder s { s.decoder with msgId := msgIdEmpty }, .idle⟩

inductive TryEvent where
  | arrive (b : Byte)
  | main (e : MainEvent)
  | int3
deriving DecidableEq

/-- A step of the main loop; its other calls come when `decode_try` has returned. -/
def tryMain (t : TryCpu) (e : MainEvent) : TryCpu :=
  if e = .decodeStep then tryStep t
  else if t.pc = .idle ∨ e = .int2 then { t with state := (mainStep ⟨t.state, .idle⟩ e).state }
  else t

def tryEventStep (t : TryCpu) : TryEvent → TryCpu
  | .arrive b => { t with state := (exchangeStep ⟨t.state, .idle⟩ b).state }
  | .main e => tryMain t e
  | .int3 => { t with state := int3Vect t.state }

def tryArrivals : List TryEvent → List Byte
  | [] => []
  | .arrive b :: es => b :: tryArrivals es
  | _ :: es => tryArrivals es

/-! ### The access the statements belong to -/

def HeaderField.pc : HeaderField → DecodePc
  | size => .readSize
  | serial => .readSerial
  | msgId => .readMsgId

/-- The flags set when the field is to be read. -/
def HeaderField.before : HeaderField → Byte
  | size => 1
  | serial => 3
  | msgId => 7

def beginOver (s : State) : Cpu := ⟨setDecoder s (decodeInit s.decoder), .idle⟩

def onward (s : State) : Cpu := ⟨s, nextPc s.decoder.decoded⟩

/-- The header has been cleared under this call. -/
def overtaken (s : State) : Cpu := if s.decoder.decoded = 0 then ⟨s, .idle⟩ else onward s

/-- Where the main loop stands once the statements up to the next access to
`read_buf` have been executed. A call that has been overtaken is over. -/
def settled (t : TryCpu) : Cpu :=
  let s := t.state
  match t.pc with
  | .idle => ⟨s, .idle⟩
  | .testHeader => onward s
  | .readCatch => onward s
  | .testCatch symbol =>
    if symbol ≠ eyeCatch then ⟨s, .idle⟩ else onward (markFlag s catchDecoded)
  | .markCatch => onward (markFlag s catchDecoded)
  | .test _ => overtaken s
  | .read _ => overtaken s
  | .mark f => onward (markFlag s f.flag)
  | .readPayload => overtaken s
  | .decode => beginOver
    (setDecoder s { s.decoder with calls := s.decoder.calls ++ [decodedMessage s.decoder] })
  | _ => beginOver s

/-- What `decode_init` has set so far. -/
def Cleared (t : TryCpu) : Prop :=
  let d := t.state.decoder
  match t.pc with
  | .clearSize => d.decoded = 0
  | .clearSerial => d.decoded = 0 ∧ d.msgSize = 0
  | .clearId => d.decoded = 0 ∧ d.msgSize = 0 ∧ d.msgSerial = 0
  | _ => True

/-- The flags a statement finds when no interrupt has come, or none. -/
def InPlace (t : TryCpu) : Prop :=
  let decoded := t.state.decoder.decoded
  match t.pc with
  | .readCatch => decoded = 0
  | .testCatch _ => decoded = 0
  | .markCatch => decoded = 0
  | .test f => decoded = 0 ∨ f.before ≤ decoded
  | .read f => decoded = 0 ∨ decoded = f.before
  | .mark f => decoded = f.before
  | .readPayload => decoded = 0 ∨ decoded = 15
  | _ => Cleared t

/-- The variables of `decode_init` as it sets them. -/
def Blank (d : Decoder) : Prop :=
  d.decoded = 0 ∧ d.msgSize = 0 ∧ d.msgSerial = 0 ∧ d.msgId = msgIdEmpty

instance (d : Decoder) : Decidable (Blank d) := inferInstanceAs (Decidable (_ ∧ _))

theorem blank_decodeInit (d : Decoder) : Blank (decodeInit d) := ⟨rfl, rfl, rfl, rfl⟩

/-- The same place, the same incoming bytes and the same decoder, but for the
record of the counts asked for. -/
structure SameReader (c c' : Cpu) : Prop where
  pc : c'.pc = c.pc
  readBuf : c'.state.link.readBuf = c.state.link.readBuf
  decoder : ∃ requested, c'.state.decoder = { c.state.decoder with requested := requested }

theorem SameReader.refl (c : Cpu) : SameReader c c := ⟨rfl, rfl, c.state.decoder.requested, rfl⟩

theorem SameReader.of_eq {c c' : Cpu} (h : c' = c) : SameReader c c' := h ▸ .refl c

theorem SameReader.reads {c c' : Cpu} (h : SameReader c c') {ms : List Message}
    {coming : List Byte} (hr : Reads ms coming c) : Reads ms coming c' := by
  obtain ⟨requested, hd⟩ := h.decoder
  have hphase : phaseOf c'.state.decoder = phaseOf c.state.decoder := by rw [hd]; rfl
  constructor
  · rw [h.readBuf]; exact hr.valid
  · rw [hd]; exact hr.inBuf
  · rw [hd]; exact hr.flags
  · rw [h.pc, hd]; exact hr.place
  · rw [h.pc, hphase]; exact hr.due
  · rw [hphase, h.readBuf]; exact hr.seek
  · rw [hphase, h.readBuf, hd]; exact hr.stream

theorem SameReader.effort {c c' : Cpu} (h : SameReader c c') : effort c' = effort c := by
  obtain ⟨requested, hd⟩ := h.decoder
  unfold Avr.effort
  rw [h.pc, h.readBuf, hd]

/-! ### One statement -/

theorem nextPc_before (f : HeaderField) : nextPc f.before = f.pc := by
  cases f <;> decide

theorem decodeStep_field (s : State) (f : HeaderField) :
    decodeStep ⟨s, f.pc⟩ = stepField f.flag f.store s := by
  cases f <;> rfl

theorem before_ne_zero (f : HeaderField) : f.before ≠ 0 := by
  cases f <;> decide

theorem overtaken_onward {s : State} (h : s.decoder.decoded ≠ 0) : overtaken s = onward s :=
  if_neg h

theorem overtaken_idle {s : State} (h : s.decoder.decoded = 0) : overtaken s = ⟨s, .idle⟩ :=
  if_pos h

/-- After the last flag of `f` comes the test of the next one. -/
theorem settled_after (s : State) (f : HeaderField) : settled ⟨s, f.after⟩ = overtaken s := by
  cases f <;> rfl

/-- The access that the statement makes is its own, or finds too little. -/
def Undisturbed (t : TryCpu) : TryEvent → Prop
  | .arrive _ => t.state.link.readBuf.contents.length + 1 < 255
  | .main e => e = .decodeStep → match t.pc with
    | .read f => t.state.decoder.decoded = f.before ∨ t.state.link.readBuf.contents = []
    | .readPayload => t.state.decoder.decoded = 15 ∨
        t.state.link.readBuf.contents.length < need t.state.decoder.msgSize
    | _ => True
  | .int3 => True

instance (t : TryCpu) (e : TryEvent) : Decidable (Undisturbed t e) := by
  cases e with
  | arrive b => unfold Undisturbed; infer_instance
  | main e => unfold Undisturbed; cases t.pc <;> infer_instance
  | int3 => unfold Undisturbed; infer_instance

/-- Statements left before the next access, at most. -/
def rank : TryPc → ℕ
  | .idle => 0
  | .testHeader => 5
  | .readCatch => 1
  | .testCatch _ => 6
  | .markCatch => 5
  | .test .size => 4
  | .test .serial => 3
  | .test .msgId => 2
  | .read _ => 1
  | .mark .size => 4
  | .mark .serial => 3
  | .mark .msgId => 2
  | .readPayload => 1
  | .decode => 5
  | .clearDecoded => 4
  | .clearSize => 3
  | .clearSerial => 2
  | .clearId => 1

theorem rank_le (pc : TryPc) : rank pc ≤ 6 := by
  cases pc with
  | test f => cases f <;> decide
  | mark f => cases f <;> decide
  | testCatch symbol => exact le_refl 6
  | read f => exact (by decide : 1 ≤ 6)
  | _ => decide

theorem rank_read_lt (f : HeaderField) : rank (.read f) < rank (.test f) := by
  cases f <;> decide

theorem rank_after_lt (f : HeaderField) : rank f.after < rank (.test f) := by
  cases f <;> decide

theorem rank_mark (f : HeaderField) : rank (.mark f) = rank (.test f) := by
  cases f <;> rfl

/-- A statement leaves the reader alone, or makes the access it stands before. -/
def Steps (t : TryCpu) : Prop :=
  (SameReader (settled t) (settled (tryStep t)) ∧ rank (tryStep t).pc < rank t.pc) ∨
    (SameReader (decodeStep (settled t)) (settled (tryStep t)) ∧
      (t.pc = .idle ∨ (settled t).pc ≠ .idle))

theorem steps_idle (s : State) : Steps ⟨s, .idle⟩ := by
  refine .inr ⟨?_, .inl rfl⟩
  unfold tryStep settled decodeStep
  dsimp only
  split_ifs <;> exact .refl _

theorem steps_testHeader (s : State) : Steps ⟨s, .testHeader⟩ := by
  left
  unfold tryStep
  dsimp only
  split_ifs with h
  · exact ⟨.refl _, (by decide : 1 < 5)⟩
  · exact ⟨.of_eq (overtaken_onward h), (by decide : 4 < 5)⟩

theorem steps_readCatch {s : State} (h : s.decoder.decoded = 0) : Steps ⟨s, .readCatch⟩ := by
  refine .inr ⟨?_, .inr (nextPc_ne_idle _)⟩
  have hset : settled ⟨s, .readCatch⟩ = ⟨s, .readCatch⟩ := by
    unfold settled onward
    dsimp only
    rw [h]
    rfl
  rw [hset]
  unfold tryStep decodeStep
  dsimp only
  rcases readSymbol s with ⟨s', _ | symbol⟩
  · exact .refl _
  · refine .of_eq ?_
    unfold settled
    dsimp only
    split_ifs <;> rfl

theorem steps_testCatch (s : State) (symbol : Byte) : Steps ⟨s, .testCatch symbol⟩ := by
  left
  unfold tryStep settled
  dsimp only
  split_ifs with h
  · exact ⟨.refl _, (by decide : 0 < 6)⟩
  · exact ⟨.refl _, (by decide : 5 < 6)⟩

theorem steps_markCatch {s : State} (h : s.decoder.decoded = 0) : Steps ⟨s, .markCatch⟩ := by
  refine .inl ⟨.of_eq (overtaken_onward ?_), (by decide : 4 < 5)⟩
  change s.decoder.decoded ||| catchDecoded ≠ 0
  rw [h]
  decide

theorem steps_test (s : State) (f : HeaderField) : Steps ⟨s, .test f⟩ := by
  left
  unfold tryStep
  dsimp only
  split_ifs
  · exact ⟨.refl _, rank_read_lt f⟩
  · exact ⟨.of_eq (settled_after s f), rank_after_lt f⟩

theorem steps_read {s : State} {f : HeaderField}
    (h : s.decoder.decoded = 0 ∨ s.decoder.decoded = f.before)
    (hown : s.decoder.decoded = f.before ∨ s.link.readBuf.contents = []) :
    Steps ⟨s, .read f⟩ := by
  by_cases hbefore : s.decoder.decoded = f.before
  · have hset : settled ⟨s, .read f⟩ = ⟨s, f.pc⟩ := by
      have hne : s.decoder.decoded ≠ 0 := hbefore ▸ before_ne_zero f
      change overtaken s = _
      rw [overtaken_onward hne, onward, hbefore, nextPc_before]
    right
    rw [hset, decodeStep_field]
    refine ⟨?_, .inr (by cases f <;> exact DecodePc.noConfusion)⟩
    unfold tryStep stepField
    dsimp only
    rcases readSymbol s with ⟨s', _ | symbol⟩ <;> exact .refl _
  · left
    have hzero : s.decoder.decoded = 0 := h.resolve_right hbefore
    have hstep : tryStep ⟨s, .read f⟩ = ⟨s, .idle⟩ := by
      unfold tryStep
      simp only [readSymbol_nil (hown.resolve_left hbefore)]
    rw [hstep]
    exact ⟨.of_eq (overtaken_idle hzero).symm, (by decide : 0 < 1)⟩

theorem steps_mark {s : State} {f : HeaderField} (h : s.decoder.decoded = f.before) :
    Steps ⟨s, .mark f⟩ := by
  left
  have hne : (markFlag s f.flag).decoder.decoded ≠ 0 := by
    change s.decoder.decoded ||| f.flag ≠ 0
    rw [h]
    cases f <;> decide
  refine ⟨.of_eq ((settled_after _ f).trans (overtaken_onward hne)), ?_⟩
  have hlt := rank_after_lt f
  rw [← rank_mark] at hlt
  exact hlt

theorem steps_readPayload {s : State} (h : s.decoder.decoded = 0 ∨ s.decoder.decoded = 15)
    (hown : s.decoder.decoded = 15 ∨
      s.link.readBuf.contents.length < need s.decoder.msgSize) : Steps ⟨s, .readPayload⟩ := by
  by_cases hall : s.decoder.decoded = 15
  · have hset : settled ⟨s, .readPayload⟩ = ⟨s, .readPayload⟩ := by
      have hne : s.decoder.decoded ≠ 0 := by rw [hall]; decide
      change overtaken s = _
      rw [overtaken_onward hne, onward, hall]
      rfl
    right
    rw [hset]
    refine ⟨?_, .inr DecodePc.noConfusion⟩
    unfold tryStep decodeStep
    dsimp only
    rcases readPayload s with ⟨s', _ | _⟩
    · exact .refl _
    · obtain ⟨hbuf, hdec⟩ := decodeDone_incoming s'
      exact ⟨rfl, hbuf.symm, _, by dsimp only; rw [hdec]; rfl⟩
  · left
    have hzero : s.decoder.decoded = 0 := h.resolve_right hall
    have hshort := bufferArrayDrain_short s.decoder.inBuf (s.decoder.msgSize - 2)
      (not_le.mpr (hown.resolve_left hall))
    have hread : tryStep ⟨s, .readPayload⟩ = ⟨setDecoder s { s.decoder with
        requested := s.decoder.requested ++ [s.decoder.msgSize - 2] }, .idle⟩ := by
      unfold tryStep readPayload spiReadArray
      simp only [hshort]
      rfl
    rw [hread]
    have hset : settled ⟨s, .readPayload⟩ = ⟨s, .idle⟩ := overtaken_idle hzero
    rw [hset]
    exact ⟨⟨rfl, rfl, _, rfl⟩, (by decide : 0 < 1)⟩

theorem steps_decode (s : State) : Steps ⟨s, .decode⟩ := by
  obtain ⟨hbuf, hdec⟩ := decode_incoming s
  refine .inl ⟨⟨rfl, hbuf, s.decoder.requested, ?_⟩, (by decide : 4 < 5)⟩
  change decodeInit (decode s).decoder = _
  rw [hdec]
  rfl

theorem steps_clearId {s : State}
    (h : s.decoder.decoded = 0 ∧ s.decoder.msgSize = 0 ∧ s.decoder.msgSerial = 0) :
    Steps ⟨s, .clearId⟩ := by
  obtain ⟨hd, hs, hr⟩ := h
  refine .inl ⟨⟨rfl, rfl, s.decoder.requested, ?_⟩, (by decide : 0 < 1)⟩
  change { s.decoder with msgId := msgIdEmpty } =
    { decodeInit s.decoder with requested := s.decoder.requested }
  simp only [decodeInit, hd, hs, hr]

/-- A statement that no interrupt has spoilt is part of an access. -/
theorem settled_tryStep {t : TryCpu} (hplace : InPlace t)
    (h : Undisturbed t (.main .decodeStep)) : Steps t := by
  obtain ⟨s, pc⟩ := t
  cases pc with
  | idle => exact steps_idle s
  | testHeader => exact steps_testHeader s
  | readCatch => exact steps_readCatch hplace
  | testCatch symbol => exact steps_testCatch s symbol
  | markCatch => exact steps_markCatch hplace
  | test f => exact steps_test s f
  | read f => exact steps_read hplace (h rfl)
  | mark f => exact steps_mark hplace
  | readPayload => exact steps_readPayload hplace (h rfl)
  | decode => exact steps_decode s
  | clearDecoded => exact .inl ⟨.refl _, (by decide : 3 < 4)⟩
  | clearSize => exact .inl ⟨.refl _, (by decide : 2 < 3)⟩
  | clearSerial => exact .inl ⟨.refl _, (by decide : 1 < 2)⟩
  | clearId => exact steps_clearId hplace

theorem overtaken_state (s : State) : (overtaken s).state = s := by
  unfold overtaken onward
  split_ifs <;> rfl

/-- The field whose flag is the first one missing. -/
theorem before_of_flag {d : Byte} {f : HeaderField} (hord : Ordered d)
    (h : d = 0 ∨ f.before ≤ d) (hflag : d &&& f.flag = 0) : d = 0 ∨ d = f.before := by
  rcases hord with rfl | rfl | rfl | rfl | rfl <;> cases f <;> revert h hflag <;> decide

theorem inPlace_after {s : State} {f : HeaderField} (hord : Ordered s.decoder.decoded)
    (h : f.before ≤ s.decoder.decoded) (hflag : s.decoder.decoded &&& f.flag ≠ 0) :
    InPlace ⟨s, f.after⟩ := by
  have hle : f.before ||| f.flag ≤ s.decoder.decoded := by
    generalize s.decoder.decoded = d at hord h hflag
    rcases hord with rfl | rfl | rfl | rfl | rfl <;> cases f <;> revert h hflag <;> decide
  cases f with
  | size => exact .inr hle
  | serial => exact .inr hle
  | msgId =>
    refine .inr ?_
    dsimp only
    generalize s.decoder.decoded = d at hord hle
    rcases hord with rfl | rfl | rfl | rfl | rfl <;> revert hle <;> decide

theorem readSymbol_cases (s : State) : ∃ (readBuf : Buffer) (got : Option Byte),
    readSymbol s = ({ s with link := { s.link with readBuf := readBuf } }, got) :=
  ⟨_, _, rfl⟩

/-- The flags are those the next statement expects, too. -/
theorem inPlace_tryStep {t : TryCpu} (hplace : InPlace t) (hord : Ordered (settled t).state.decoder.decoded)
    (h : Undisturbed t (.main .decodeStep)) : InPlace (tryStep t) := by
  obtain ⟨s, pc⟩ := t
  cases pc with
  | idle =>
    unfold tryStep
    dsimp only
    split_ifs <;> trivial
  | testHeader =>
    unfold tryStep
    dsimp only
    split_ifs with hd
    · exact hd
    · change Ordered s.decoder.decoded at hord
      refine .inr ?_
      rcases hord with hd' | hd' | hd' | hd' | hd' <;> dsimp only <;> rw [hd']
      · exact absurd hd' hd
      all_goals decide
  | readCatch =>
    obtain ⟨readBuf, got, hread⟩ := readSymbol_cases s
    unfold tryStep
    simp only [hread]
    cases got with
    | none => trivial
    | some symbol => exact hplace
  | testCatch symbol =>
    unfold tryStep
    dsimp only
    split_ifs
    · trivial
    · exact hplace
  | markCatch =>
    have hd : s.decoder.decoded = 0 := hplace
    refine .inr ?_
    change HeaderField.before .size ≤ s.decoder.decoded ||| catchDecoded
    rw [hd]
    decide
  | test f =>
    rw [show settled ⟨s, .test f⟩ = overtaken s from rfl, overtaken_state] at hord
    unfold tryStep
    dsimp only
    split_ifs with hflag
    · exact before_of_flag hord hplace hflag
    · refine inPlace_after hord (hplace.resolve_left fun hd => hflag ?_) hflag
      rw [hd]
      exact BitVec.zero_and
  | read f =>
    have hown := (h rfl : s.decoder.decoded = f.before ∨ s.link.readBuf.contents = [])
    rcases hown with hbefore | hempty
    · obtain ⟨readBuf, got, hread⟩ := readSymbol_cases s
      unfold tryStep
      simp only [hread]
      cases got with
      | none => trivial
      | some symbol => cases f <;> exact hbefore
    · unfold tryStep
      simp only [readSymbol_nil hempty]
      trivial
  | mark f =>
    have hd : s.decoder.decoded = f.before := hplace
    have hmark : (markFlag s f.flag).decoder.decoded = f.before ||| f.flag := by
      change s.decoder.decoded ||| f.flag = _
      rw [hd]
    have hord' : Ordered (f.before ||| f.flag) := by
      cases f
      · exact .inr (.inr (.inl rfl))
      · exact .inr (.inr (.inr (.inl rfl)))
      · exact .inr (.inr (.inr (.inr rfl)))
    refine inPlace_after (hmark ▸ hord') ?_ ?_ <;> rw [hmark] <;> cases f <;> decide
  | readPayload =>
    unfold tryStep
    dsimp only
    rcases readPayload s with ⟨s', _ | _⟩ <;> trivial
  | decode => trivial
  | clearDecoded => exact rfl
  | clearSize => exact ⟨hplace, rfl⟩
  | clearSerial => exact ⟨hplace.1, hplace.2, rfl⟩
  | clearId => trivial

end LedServer.Avr
