import LedServer.AvrTwiQueue

set_option autoImplicit false

/-!
# One TWI transaction

What the interrupts of a transaction put on the bus, what they do to `m_data`
and what the callback is given in the end, whatever the status register says.
-/
namespace LedServer.AvrTwi
open AvrRing Machine

/-- What a value of `TWCR` makes the hardware do. A start may be a repeated one. -/
inductive BusEvent where
  | start
  | write (byte : Byte)
  | read
  | stop
deriving DecidableEq

/-- Behind the address for reading, `GO_AHEAD` alone asks for a byte. -/
def busEvent (t : Twi) : BusEvent :=
  match t.twcr with
  | .goAheadStart => .start
  | .goAheadStop => .stop
  | .goAhead => if t.mode = .readValue then .read else .write t.twdr

/-- What `check_status_register` is asked for in each mode. -/
def expectedCode : TwiMode → Byte
  | .writeStart | .readStart => twStart
  | .writeSlave | .readSlave => twMtSlaAck
  | .writeReg | .writeValue | .readReg => twMtDataAck
  | .readRestart => twRepStart
  | .readRestartSlave => twMrSlaAck
  | .readValue => twMrDataAck
  | .idle => 0

/-- What is recorded when the check fails. -/
def phaseError : TwiMode → TwiStatus
  | .writeStart => .writeStartError
  | .writeSlave => .writeSlaveError
  | .writeReg => .writeRegError
  | .writeValue => .writeValueError
  | .readStart => .readStartError
  | .readSlave => .readSlaveError
  | .readReg => .readRegError
  | .readRestart => .readRestartError
  | .readRestartSlave => .readRestartSlaveError
  | .readValue => .readValueError
  | .idle => .success

/-- The indices of `m_data` an interrupt reads or writes. -/
def dataAccess (t : Twi) (twsr : Byte) : List ℕ :=
  if checkStatusRegister twsr (expectedCode t.mode) then
    match t.mode with
    | .writeReg => [t.mIndex.toNat]
    | .writeValue => if t.mIndex + 1 < t.mMaxIndex then [(t.mIndex + 1).toNat] else []
    | .readValue => [t.mIndex.toNat]
    | _ => []
  else []

/-- A transaction with the record of it: what is on the bus, the accesses to
`m_data`, the status and the byte each interrupt found, the callbacks. -/
structure TwiLog where
  twi : Twi
  bus : List BusEvent
  accesses : List ℕ
  seen : List (Byte × Byte)
  reports : List TwiReport

/-- `twi_try` has sent the start. -/
def TwiLog.begin (t : Twi) : TwiLog := ⟨t, [.start], [], [], []⟩

/-- The main loop goes on while the transaction runs. There is no interrupt
after a stop. -/
def TwiLog.step (r : TwiLog) : TwiEvent → TwiLog
  | .call request => { r with twi := (twiCall r.twi request).1 }
  | .twiTry =>
    { r with twi := (twiTry r.twi).1, reports := r.reports ++ (twiTry r.twi).2.toList }
  | .vect twsr received =>
    if r.twi.mode = .idle then r
    else
      { r with
        twi := twiVect r.twi twsr received
        bus := r.bus ++ [busEvent (twiVect r.twi twsr received)]
        accesses := r.accesses ++ dataAccess r.twi twsr
        seen := r.seen ++ [(twsr, received)] }

/-- The next request is not taken yet. -/
def Current (r : TwiLog) (e : TwiEvent) : Prop := e = .twiTry → ¬ Dequeues r.twi

instance (r : TwiLog) (e : TwiEvent) : Decidable (Current r e) :=
  inferInstanceAs (Decidable (_ → _))

/-! ### What a request comes to -/

namespace TwiRequest

/-- The modes before the values. -/
def opening : TwiRequest → List TwiMode
  | .write .. => [.writeStart, .writeSlave, .writeReg]
  | .read .. => [.readStart, .readSlave, .readReg, .readRestart, .readRestartSlave]

def valueMode : TwiRequest → TwiMode
  | .write .. => .writeValue
  | .read .. => .readValue

/-- The mode that interrupt number `k` finds. -/
def phase (request : TwiRequest) (k : ℕ) : TwiMode := request.opening.getD k request.valueMode

def interrupts (request : TwiRequest) : ℕ := request.opening.length + request.len

/-- All that a request puts on the bus before the stop. -/
def traffic (address : Byte) : TwiRequest → List BusEvent
  | .write _ _ reg data =>
    [BusEvent.start, .write (address <<< 1), .write reg] ++ data.map BusEvent.write
  | .read _ _ reg len =>
    [BusEvent.start, .write (address <<< 1), .write reg, .start, .write (address <<< 1 ||| 1)] ++
      List.replicate len.toNat BusEvent.read

/-- Every check of `seen` has come out well. -/
def Passed (request : TwiRequest) (seen : List (Byte × Byte)) : Prop :=
  ∀ p ∈ seen.zipIdx, checkStatusRegister p.1.1 (expectedCode (request.phase p.2)) = true

instance (request : TwiRequest) (seen : List (Byte × Byte)) :
    Decidable (request.Passed seen) := inferInstanceAs (Decidable (∀ _ ∈ _, _))

/-- The bytes a read has received; that of a failed check is none of them. -/
def received (request : TwiRequest) (seen : List (Byte × Byte)) : List Byte :=
  match request with
  | .write .. => []
  | .read .. =>
    ((if request.Passed seen then seen else seen.dropLast).drop request.opening.length).map
      Prod.snd

/-- `status` after the interrupts of `seen`. -/
def recorded (request : TwiRequest) (status : TwiStatus) (seen : List (Byte × Byte)) :
    TwiStatus :=
  if request.Passed seen then status else phaseError (request.phase (seen.length - 1))

/-- What the callback is given. -/
def report (request : TwiRequest) (status : TwiStatus) (data : List Byte)
    (seen : List (Byte × Byte)) : TwiReport :=
  match request with
  | .write id tag _ _ => .write id tag (request.recorded status seen)
  | .read id tag _ len =>
    .read id tag (request.recorded status seen) len
      (request.received seen ++ data.drop (request.received seen).length)

theorem passed_append (request : TwiRequest) (seen : List (Byte × Byte)) (p : Byte × Byte) :
    request.Passed (seen ++ [p]) ↔ request.Passed seen ∧
      checkStatusRegister p.1 (expectedCode (request.phase seen.length)) = true := by
  unfold Passed
  simp [List.zipIdx_append, or_imp, forall_and]

theorem received_failed {request : TwiRequest} {seen : List (Byte × Byte)} {p : Byte × Byte}
    (h : request.Passed seen) (hfailed : ¬ request.Passed (seen ++ [p])) :
    request.received (seen ++ [p]) = request.received seen := by
  cases request with
  | write => rfl
  | read => rw [received, received, if_pos h, if_neg hfailed, List.dropLast_concat]

theorem received_passed {id tag reg len : Byte} {seen : List (Byte × Byte)}
    (h : (TwiRequest.read id tag reg len).Passed seen) :
    (TwiRequest.read id tag reg len).received seen = (seen.drop 5).map Prod.snd := by
  rw [received, if_pos h]
  rfl

theorem phase_ne (request : TwiRequest) (k : ℕ) : request.phase k ≠ .idle := by
  cases request with
  | write =>
    match k with
    | 0 | 1 | 2 | _ + 3 => exact TwiMode.noConfusion
  | read =>
    match k with
    | 0 | 1 | 2 | 3 | 4 | _ + 5 => exact TwiMode.noConfusion

/-- `++mode` leads through the opening and to the values. -/
theorem phase_opening {request : TwiRequest} {k : ℕ} (hk : k < request.opening.length) :
    (request.phase k).next = request.phase (k + 1) ∧ request.phase k ≠ .writeValue ∧
      request.phase k ≠ .readValue := by
  cases request with
  | write =>
    match k, hk with
    | 0, _ | 1, _ | 2, _ => exact ⟨rfl, TwiMode.noConfusion, TwiMode.noConfusion⟩
  | read =>
    match k, hk with
    | 0, _ | 1, _ | 2, _ | 3, _ | 4, _ =>
      exact ⟨rfl, TwiMode.noConfusion, TwiMode.noConfusion⟩

theorem traffic_length (request : TwiRequest) (address : Byte) :
    (request.traffic address).length = request.interrupts := by
  cases request with
  | write id tag reg data =>
    simp only [traffic, interrupts, opening, TwiRequest.len, List.length_append, List.length_map,
      List.length_cons, List.length_nil]
  | read id tag reg len =>
    simp only [traffic, interrupts, opening, TwiRequest.len, List.length_append,
      List.length_replicate, List.length_cons, List.length_nil]

end TwiRequest

/-! ### One interrupt -/

/-- A failed check ends the transaction. -/
theorem twiVect_failed {t : Twi} {twsr : Byte} (hmode : t.mode ≠ .idle)
    (hc : checkStatusRegister twsr (expectedCode t.mode) = false) (received : Byte) :
    twiVect t twsr received =
      { t with mode := .idle, twcr := .goAheadStop, status := phaseError t.mode } := by
  unfold twiVect vectPhase stop
  cases hm : t.mode <;> rw [hm] at hc hmode <;> simp only [expectedCode] at hc <;>
    simp [hc, phaseError] at *

/-- What an interrupt does when its check has come out well. -/
def vectGo (t : Twi) (received : Byte) : Twi :=
  match t.mode with
  | .writeStart => { t with mode := .writeSlave, twdr := slaveAddress t false, twcr := .goAhead }
  | .writeSlave => { t with mode := .writeReg, twdr := t.mReg, twcr := .goAhead }
  | .writeReg =>
    { t with mode := .writeValue, twdr := t.mData.getD t.mIndex.toNat 0, twcr := .goAhead }
  | .writeValue =>
    if t.mIndex + 1 < t.mMaxIndex then
      { t with
        mIndex := t.mIndex + 1
        twdr := t.mData.getD (t.mIndex + 1).toNat 0
        twcr := .goAhead }
    else { t with mIndex := t.mIndex + 1, mode := .idle, twcr := .goAheadStop }
  | .readStart => { t with mode := .readSlave, twdr := slaveAddress t false, twcr := .goAhead }
  | .readSlave => { t with mode := .readReg, twdr := t.mReg, twcr := .goAhead }
  | .readReg => { t with mode := .readRestart, twcr := .goAheadStart }
  | .readRestart =>
    { t with mode := .readRestartSlave, twdr := slaveAddress t true, twcr := .goAhead }
  | .readRestartSlave => { t with mode := .readValue, twcr := .goAhead }
  | .readValue =>
    let t := { t with mData := t.mData.set t.mIndex.toNat received, mIndex := t.mIndex + 1 }
    if t.mIndex < t.mMaxIndex then { t with twcr := .goAhead }
    else { t with mode := .idle, twcr := .goAheadStop }
  | .idle => t

theorem twiVect_passed {t : Twi} {twsr : Byte}
    (hc : checkStatusRegister twsr (expectedCode t.mode) = true) (received : Byte) :
    twiVect t twsr received = vectGo t received := by
  unfold twiVect vectPhase stop vectGo
  cases hm : t.mode with
  | idle =>
    obtain ⟨mode, _⟩ := t
    cases hm
    rfl
  | writeValue | readValue =>
    rw [hm] at hc
    simp only [expectedCode] at hc
    simp only [hc, ↓reduceIte]
  | _ =>
    rw [hm] at hc
    simp only [expectedCode] at hc
    simp only [hc, ↓reduceIte]
    rfl

/-- The request stays what it is, and what the main loop does meanwhile concerns
the queue only. -/
structure SameRequest (s t : Twi) : Prop where
  action : t.mAction = s.mAction
  tag : t.mTag = s.mTag
  id : t.mId = s.mId
  reg : t.mReg = s.mReg
  max : t.mMaxIndex = s.mMaxIndex
  address : t.mAddress = s.mAddress

theorem SameRequest.vect {s t : Twi} (h : SameRequest s t) (twsr received : Byte) :
    SameRequest s (twiVect t twsr received) := by
  obtain ⟨action, tag, id, reg, max, address⟩ := h
  unfold twiVect vectPhase stop
  cases t.mode <;> dsimp only <;> (try split_ifs) <;>
    exact ⟨action, tag, id, reg, max, address⟩

theorem twiCall_frame (t : Twi) (request : TwiRequest) :
    (twiCall t request).1 = { t with queue := (twiCall t request).1.queue } := by
  cases request with
  | write id tag reg data =>
    simp only [twiCall, twiWriteArray]
    split_ifs <;> rfl
  | read id tag reg len =>
    simp only [twiCall, twiReadArray]
    split_ifs <;> rfl

/-- A request taken off the queue. -/
structure Fetched (s : Twi) : Prop where
  action : s.mAction ≠ .idle
  le : s.mMaxIndex.toNat ≤ 127
  data : s.mData.length = maxLen

/-- Its header has a length. -/
structure Taken (s : Twi) : Prop extends Fetched s where
  pos : 1 ≤ s.mMaxIndex.toNat

def ownAddress (s : Twi) : Byte := s.mAddress.getD s.mId.toNat 0

theorem Fetched.len {s : Twi} (h : Fetched s) : (loaded s).len = s.mMaxIndex.toNat := by
  have hdata := h.data
  have hle := h.le
  unfold maxLen at hdata
  unfold loaded
  split_ifs
  · rw [TwiRequest.len, List.length_take]
    omega
  · rfl

theorem Taken.opening_write {s : Twi} (hw : s.mAction = .write) :
    loaded s = .write s.mId s.mTag s.mReg (s.mData.take s.mMaxIndex.toNat) := if_pos hw

theorem Taken.opening_read {s : Twi} (hw : s.mAction ≠ .write) :
    loaded s = .read s.mId s.mTag s.mReg s.mMaxIndex := if_neg hw

/-- The transaction of `s` after the interrupts of `r.seen`, none of which has
ended it. -/
structure Underway (s : Twi) (r : TwiLog) : Prop where
  same : SameRequest s r.twi
  mode : r.twi.mode = (loaded s).phase r.seen.length
  more : r.seen.length < (loaded s).interrupts
  passed : (loaded s).Passed r.seen
  index : r.twi.mIndex.toNat = r.seen.length - (loaded s).opening.length
  bus : r.bus = ((loaded s).traffic (ownAddress s)).take (r.seen.length + 1)
  accesses : ∀ i ∈ r.accesses, i < (loaded s).len
  status : r.twi.status = s.status
  data : r.twi.mData = (loaded s).received r.seen ++
    s.mData.drop ((loaded s).received r.seen).length
  reports : r.reports = []

/-- What is on the record when it has ended. -/
structure Recorded (s : Twi) (r : TwiLog) : Prop where
  length_le : r.seen.length ≤ (loaded s).interrupts
  whole : (loaded s).Passed r.seen → r.seen.length = (loaded s).interrupts
  bus : r.bus = ((loaded s).traffic (ownAddress s)).take r.seen.length ++ [.stop]
  accesses : ∀ i ∈ r.accesses, i < (loaded s).len

structure Ended (s : Twi) (r : TwiLog) : Prop extends Recorded s r where
  same : SameRequest s r.twi
  mode : r.twi.mode = .idle
  status : r.twi.status = (loaded s).recorded s.status r.seen
  data : r.twi.mData = (loaded s).received r.seen ++
    s.mData.drop ((loaded s).received r.seen).length
  reports : r.reports = []

structure Reported (s : Twi) (r : TwiLog) : Prop extends Recorded s r where
  mode : r.twi.mode = .idle
  action : r.twi.mAction = .idle
  reports : r.reports = [(loaded s).report s.status s.mData r.seen]

theorem Ended.twiReport {s : Twi} {r : TwiLog} (h : Ended s r) :
    twiReport r.twi = (loaded s).report s.status s.mData r.seen := by
  have hsame := h.same
  unfold AvrTwi.twiReport
  rw [hsame.action, hsame.id, hsame.tag, hsame.max, h.status, h.data]
  by_cases hw : s.mAction = .write
  · rw [if_pos hw, Taken.opening_write hw]
    rfl
  · rw [if_neg hw, Taken.opening_read hw]
    rfl

theorem Underway.busy {s : Twi} {r : TwiLog} (h : Underway s r) : r.twi.mode ≠ .idle := by
  rw [h.mode]
  exact TwiRequest.phase_ne _ _

theorem Underway.step_vect {s : Twi} {r : TwiLog} (h : Underway s r) (twsr received : Byte) :
    r.step (.vect twsr received) =
      { r with
        twi := twiVect r.twi twsr received
        bus := r.bus ++ [busEvent (twiVect r.twi twsr received)]
        accesses := r.accesses ++ dataAccess r.twi twsr
        seen := r.seen ++ [(twsr, received)] } := by
  rw [TwiLog.step, if_neg h.busy]

/-- A check that fails, at whatever point. -/
theorem Underway.fail {s : Twi} {r : TwiLog} (h : Underway s r) {twsr : Byte}
    (hc : checkStatusRegister twsr (expectedCode r.twi.mode) = false) (received : Byte) :
    Ended s (r.step (.vect twsr received)) := by
  have hfailed : ¬ (loaded s).Passed (r.seen ++ [(twsr, received)]) := by
    rw [TwiRequest.passed_append, ← h.mode, hc]
    rintro ⟨-, hfalse⟩
    cases hfalse
  have hreceived : (loaded s).received (r.seen ++ [(twsr, received)]) =
      (loaded s).received r.seen := TwiRequest.received_failed h.passed hfailed
  rw [h.step_vect, twiVect_failed h.busy hc]
  refine ⟨⟨?_, fun hp => absurd hp hfailed, ?_, ?_⟩, ?_, rfl, ?_, ?_, h.reports⟩
  · rw [List.length_append, List.length_singleton]
    exact h.more
  · rw [List.length_append, List.length_singleton, ← h.bus]
    rfl
  · intro i hi
    rw [dataAccess, hc] at hi
    exact h.accesses i (by simpa using hi)
  · obtain ⟨action, tag, id, reg, max, address⟩ := h.same
    exact ⟨action, tag, id, reg, max, address⟩
  · rw [TwiRequest.recorded, if_neg hfailed, List.length_append, List.length_singleton,
      Nat.add_sub_cancel, ← h.mode]
  · rw [hreceived]
    exact h.data

/-- What an interrupt leads to whose check comes out well. -/
structure Advance (s : Twi) (r : TwiLog) (p : Byte × Byte) (t : Twi) (accessed : List ℕ) :
    Prop where
  mode : t.mode = if r.seen.length + 1 < (loaded s).interrupts then
    (loaded s).phase (r.seen.length + 1) else .idle
  event : busEvent t = (((loaded s).traffic (ownAddress s))[r.seen.length + 1]?).getD .stop
  index : t.mIndex.toNat = r.seen.length + 1 - (loaded s).opening.length
  status : t.status = r.twi.status
  data : t.mData = (loaded s).received (r.seen ++ [p]) ++
    s.mData.drop ((loaded s).received (r.seen ++ [p])).length
  accessed : ∀ i ∈ accessed, i < (loaded s).len

theorem index_succ {i : Byte} (hi : i.toNat < 127) (max : Byte) :
    (i + 1).toNat = i.toNat + 1 ∧ (i + 1 < max ↔ i.toNat + 1 < max.toNat) := by
  have h : (i + 1).toNat = i.toNat + 1 := by
    rw [BitVec.toNat_add]
    change (i.toNat + 1) % 256 = _
    omega
  exact ⟨h, by rw [BitVec.lt_def, h]⟩

theorem SameRequest.ownAddress {s t : Twi} (h : SameRequest s t) :
    AvrTwi.ownAddress t = AvrTwi.ownAddress s := by
  rw [AvrTwi.ownAddress, AvrTwi.ownAddress, h.address, h.id]

/-- Nothing is received before the values. -/
theorem TwiRequest.received_opening {request : TwiRequest} {seen : List (Byte × Byte)}
    (h : seen.length ≤ request.opening.length) : request.received seen = [] := by
  cases request with
  | write => rfl
  | read =>
    rw [received, List.map_eq_nil_iff, List.drop_eq_nil_iff]
    split_ifs
    · exact h
    · rw [List.length_dropLast]
      omega

/-- What goes out before the values, mode by mode. -/
def opened (t : Twi) : BusEvent :=
  match t.mode with
  | .writeStart | .readStart => .write (ownAddress t <<< 1)
  | .writeSlave | .readSlave => .write t.mReg
  | .writeReg => .write (t.mData.getD t.mIndex.toNat 0)
  | .readReg => .start
  | .readRestart => .write (ownAddress t <<< 1 ||| 1)
  | _ => .read

/-- The phases before the values do not touch `m_index` or write `m_data`. -/
theorem vectGo_opening {t : Twi} (hidle : t.mode ≠ .idle) (hwrite : t.mode ≠ .writeValue)
    (hread : t.mode ≠ .readValue) (received : Byte) :
    (vectGo t received).mode = t.mode.next ∧ busEvent (vectGo t received) = opened t ∧
      (vectGo t received).mIndex = t.mIndex ∧ (vectGo t received).status = t.status ∧
      (vectGo t received).mData = t.mData ∧
      ∀ twsr, ∀ i ∈ dataAccess t twsr, i = t.mIndex.toNat := by
  unfold vectGo busEvent opened dataAccess ownAddress slaveAddress
  cases hm : t.mode <;> simp [hm, TwiMode.next] at *

/-- One of the phases before the values. -/
theorem Underway.opening {s : Twi} {r : TwiLog} (hs : Taken s) (h : Underway s r)
    (hk : r.seen.length < (loaded s).opening.length)
    (hevent : ((loaded s).traffic (ownAddress s))[r.seen.length + 1]? = some (opened r.twi))
    (twsr received : Byte) :
    Advance s r (twsr, received) (vectGo r.twi received) (dataAccess r.twi twsr) := by
  have hlen := hs.len
  have hpos := hs.pos
  obtain ⟨hafter, hwrite, hread⟩ := TwiRequest.phase_opening hk
  rw [← h.mode] at hafter hwrite hread
  obtain ⟨hnext, hsent, hindex, hstatus, hdata, haccess⟩ :=
    vectGo_opening h.busy hwrite hread received
  have hold := TwiRequest.received_opening hk.le
  have hnew : (loaded s).received (r.seen ++ [(twsr, received)]) = [] :=
    TwiRequest.received_opening (by rw [List.length_append, List.length_singleton]; exact hk)
  refine ⟨?_, ?_, ?_, hstatus, ?_, fun i hi => ?_⟩
  · rw [if_pos (by unfold TwiRequest.interrupts; omega), hnext]
    exact hafter
  · rw [hevent, hsent]
    rfl
  · rw [hindex, h.index]
    omega
  · rw [hdata, h.data, hold, hnew]
  · rw [haccess twsr i hi, h.index]
    omega

/-- What a value phase does: the index goes up, and there is another byte or the
stop. -/
structure ValueStep (t t' : Twi) (event : BusEvent) (data : List Byte) : Prop where
  index : t'.mIndex.toNat = t.mIndex.toNat + 1
  status : t'.status = t.status
  data : t'.mData = data
  more : t.mIndex.toNat + 1 < t.mMaxIndex.toNat → t'.mode = t.mode ∧ busEvent t' = event
  last : ¬ t.mIndex.toNat + 1 < t.mMaxIndex.toNat → t'.mode = .idle ∧ busEvent t' = .stop

theorem busEvent_goAhead {t : Twi} (h : t.twcr = .goAhead) :
    busEvent t = if t.mode = .readValue then .read else .write t.twdr := by
  rw [busEvent, h]

theorem vectGo_writeValue {t : Twi} (hmode : t.mode = .writeValue) (hi : t.mIndex.toNat < 127)
    (received : Byte) :
    ValueStep t (vectGo t received) (.write (t.mData.getD (t.mIndex.toNat + 1) 0)) t.mData := by
  obtain ⟨hsucc, hlt⟩ := index_succ hi t.mMaxIndex
  rw [vectGo, hmode]
  dsimp only
  split_ifs with hmore
  · refine ⟨hsucc, rfl, rfl, fun _ => ⟨hmode.symm, ?_⟩, fun hno => absurd (hlt.mp hmore) hno⟩
    rw [← hsucc]
    exact (busEvent_goAhead rfl).trans (if_neg TwiMode.noConfusion)
  · exact ⟨hsucc, rfl, rfl, fun h => absurd (hlt.mpr h) hmore, fun _ => ⟨rfl, rfl⟩⟩

theorem vectGo_readValue {t : Twi} (hmode : t.mode = .readValue) (hi : t.mIndex.toNat < 127)
    (received : Byte) :
    ValueStep t (vectGo t received) .read (t.mData.set t.mIndex.toNat received) := by
  obtain ⟨hsucc, hlt⟩ := index_succ hi t.mMaxIndex
  rw [vectGo, hmode]
  dsimp only
  split_ifs with hmore
  · exact ⟨hsucc, rfl, rfl, fun _ => ⟨hmode.symm, (busEvent_goAhead rfl).trans (if_pos rfl)⟩,
      fun hno => absurd (hlt.mp hmore) hno⟩
  · exact ⟨hsucc, rfl, rfl, fun h => absurd (hlt.mpr h) hmore, fun _ => ⟨rfl, rfl⟩⟩

/-- One of the phases of the values. -/
theorem Underway.value {s : Twi} {r : TwiLog} (hs : Taken s) (h : Underway s r)
    (hk : (loaded s).opening.length ≤ r.seen.length) {p : Byte × Byte} {t : Twi}
    {event : BusEvent} {data : List Byte} {accessed : List ℕ}
    (hstep : ValueStep r.twi t event data)
    (hevent : r.seen.length + 1 < (loaded s).interrupts →
      ((loaded s).traffic (ownAddress s))[r.seen.length + 1]? = some event)
    (hdata : data = (loaded s).received (r.seen ++ [p]) ++
      s.mData.drop ((loaded s).received (r.seen ++ [p])).length)
    (haccessed : ∀ i ∈ accessed, i < s.mMaxIndex.toNat) : Advance s r p t accessed := by
  have hlen := hs.len
  have hindex := h.index
  have hmax := h.same.max
  have hphase : ∀ k, (loaded s).opening.length ≤ k → (loaded s).phase k = (loaded s).valueMode :=
    fun k hk => List.getD_eq_default _ _ hk
  have hmode : r.twi.mode = (loaded s).phase (r.seen.length + 1) := by
    rw [h.mode, hphase _ hk, hphase _ (by omega)]
  have hiff : r.twi.mIndex.toNat + 1 < r.twi.mMaxIndex.toNat ↔
      r.seen.length + 1 < (loaded s).interrupts := by
    rw [hmax]
    unfold TwiRequest.interrupts
    omega
  have hnext : t.mIndex.toNat = r.seen.length + 1 - (loaded s).opening.length := by
    rw [hstep.index]
    omega
  by_cases hmore : r.seen.length + 1 < (loaded s).interrupts
  · obtain ⟨hsame, hbus⟩ := hstep.more (hiff.mpr hmore)
    refine ⟨?_, ?_, hnext, hstep.status, hstep.data.trans hdata, fun i hi => ?_⟩
    · rw [if_pos hmore, hsame, hmode]
    · rw [hevent hmore, hbus]
      rfl
    · rw [hlen]
      exact haccessed i hi
  · obtain ⟨hidle, hbus⟩ := hstep.last fun hm => hmore (hiff.mp hm)
    have hmore' := h.more
    refine ⟨?_, ?_, hnext, hstep.status, hstep.data.trans hdata, fun i hi => ?_⟩
    · rw [if_neg hmore, hidle]
    · rw [hbus, List.getElem?_eq_none (by rw [TwiRequest.traffic_length]; omega)]
      rfl
    · rw [hlen]
      exact haccessed i hi

theorem Underway.write {s : Twi} {r : TwiLog} (hs : Taken s) (h : Underway s r)
    (hw : s.mAction = .write) {twsr : Byte}
    (hc : checkStatusRegister twsr (expectedCode r.twi.mode) = true) (received : Byte) :
    Advance s r (twsr, received) (vectGo r.twi received) (dataAccess r.twi twsr) := by
  have hpos := hs.pos
  have hle := hs.le
  have hlen := hs.len
  have hfull := hs.data
  have hown := h.same.ownAddress
  have hload := Taken.opening_write hw
  have hmode := h.mode
  have hmore := h.more
  have hindex := h.index
  have hdata : r.twi.mData = s.mData := by
    rw [h.data, hload]
    rfl
  have hopening : (loaded s).opening.length = 3 := by rw [hload]; rfl
  -- byte `i` of the data on the bus
  have hvalue : ∀ i < s.mMaxIndex.toNat, ((loaded s).traffic (ownAddress s))[i + 3]? =
      some (.write (s.mData.getD i 0)) := by
    intro i hi
    unfold maxLen at hfull
    rw [hload]
    change ((s.mData.take s.mMaxIndex.toNat).map BusEvent.write)[i]? = _
    rw [List.getElem?_map, List.getElem?_take_of_lt hi, List.getD_eq_getElem?_getD,
      List.getElem?_eq_getElem (by omega)]
    rfl
  unfold TwiRequest.interrupts at hmore
  rw [hopening] at hindex hmore
  match hk : r.seen.length with
  | 0 =>
    rw [hk, hload] at hmode
    refine h.opening hs (by omega) ?_ twsr received
    rw [hk, hload, opened, hmode, hown]
    rfl
  | 1 =>
    rw [hk, hload] at hmode
    refine h.opening hs (by omega) ?_ twsr received
    rw [hk, hload, opened, hmode, h.same.reg]
    rfl
  | 2 =>
    rw [hk, hload] at hmode
    rw [hk] at hindex
    refine h.opening hs (by omega) ?_ twsr received
    rw [hk, hvalue 0 (by omega), opened, hmode, hdata, hindex]
    rfl
  | i + 3 =>
    rw [hk, hload] at hmode
    change r.twi.mode = .writeValue at hmode
    have hi : r.twi.mIndex.toNat = i := by omega
    refine h.value hs (by omega) (vectGo_writeValue hmode (by omega) received) (fun hnext => ?_)
      ?_ fun j hj => ?_
    · unfold TwiRequest.interrupts at hnext
      rw [hk, hi, hdata]
      exact hvalue (i + 1) (by omega)
    · rw [hdata, hload]
      rfl
    · have hin : r.twi.mIndex.toNat < 127 := by omega
      obtain ⟨hsucc, hlt⟩ := index_succ hin r.twi.mMaxIndex
      rw [dataAccess, if_pos hc, hmode] at hj
      dsimp only at hj
      split_ifs at hj with hnext
      · rw [List.mem_singleton.mp hj, hsucc, ← h.same.max]
        exact hlt.mp hnext
      · cases hj

theorem Underway.read {s : Twi} {r : TwiLog} (hs : Taken s) (h : Underway s r)
    (hw : s.mAction ≠ .write) {twsr : Byte}
    (hc : checkStatusRegister twsr (expectedCode r.twi.mode) = true) (received : Byte) :
    Advance s r (twsr, received) (vectGo r.twi received) (dataAccess r.twi twsr) := by
  have hpos := hs.pos
  have hle := hs.le
  have hlen := hs.len
  have hfull := hs.data
  have hown := h.same.ownAddress
  have hload := Taken.opening_read hw
  have hmode := h.mode
  have hmore := h.more
  have hindex := h.index
  have hopening : (loaded s).opening.length = 5 := by rw [hload]; rfl
  have hvalue : ∀ i < s.mMaxIndex.toNat,
      ((loaded s).traffic (ownAddress s))[i + 5]? = some .read := by
    intro i hi
    rw [hload]
    exact List.getElem?_replicate_of_lt hi
  have hpassed : (loaded s).Passed (r.seen ++ [(twsr, received)]) := by
    rw [TwiRequest.passed_append, ← h.mode]
    exact ⟨h.passed, hc⟩
  unfold TwiRequest.interrupts at hmore
  rw [hopening] at hindex hmore
  match hk : r.seen.length with
  | 0 =>
    rw [hk, hload] at hmode
    refine h.opening hs (by omega) ?_ twsr received
    rw [hk, hload, opened, hmode, hown]
    rfl
  | 1 =>
    rw [hk, hload] at hmode
    refine h.opening hs (by omega) ?_ twsr received
    rw [hk, hload, opened, hmode, h.same.reg]
    rfl
  | 2 =>
    rw [hk, hload] at hmode
    refine h.opening hs (by omega) ?_ twsr received
    rw [hk, hload, opened, hmode]
    rfl
  | 3 =>
    rw [hk, hload] at hmode
    refine h.opening hs (by omega) ?_ twsr received
    rw [hk, hload, opened, hmode, hown]
    rfl
  | 4 =>
    rw [hk, hload] at hmode
    refine h.opening hs (by omega) ?_ twsr received
    rw [hk, hvalue 0 (by omega), opened, hmode]
    rfl
  | i + 5 =>
    rw [hk, hload] at hmode
    change r.twi.mode = .readValue at hmode
    have hi : r.twi.mIndex.toNat = i := by omega
    refine h.value hs (by omega) (vectGo_readValue hmode (by omega) received) (fun hnext => ?_)
      ?_ fun j hj => ?_
    · unfold TwiRequest.interrupts at hnext
      rw [hk]
      exact hvalue (i + 1) (by omega)
    · have hbefore : (loaded s).received r.seen = (r.seen.drop 5).map Prod.snd := by
        have h' := h.passed
        rw [hload] at h' ⊢
        exact TwiRequest.received_passed h'
      have hafter : (loaded s).received (r.seen ++ [(twsr, received)]) =
          (r.seen.drop 5).map Prod.snd ++ [received] := by
        rw [hload] at hpassed ⊢
        rw [TwiRequest.received_passed hpassed, List.drop_append_of_le_length (by omega),
          List.map_append]
        rfl
      have hcount : ((r.seen.drop 5).map Prod.snd).length = i := by
        rw [List.length_map, List.length_drop]
        omega
      have hnew : ((r.seen.drop 5).map Prod.snd ++ [received]).length = i + 1 := by
        rw [List.length_append, hcount, List.length_singleton]
      have hbound : i < s.mData.length := by
        unfold maxLen at hfull
        omega
      rw [h.data, hbefore, hafter, hi, hcount, hnew, List.set_append_right i _ hcount.le, hcount,
        Nat.sub_self, List.drop_eq_getElem_cons hbound, List.set_cons_zero, List.append_assoc]
      rfl
    · rw [dataAccess, if_pos hc, hmode] at hj
      rw [List.mem_singleton.mp hj, hi]
      omega

theorem Underway.pass {s : Twi} {r : TwiLog} (hs : Taken s) (h : Underway s r) {twsr : Byte}
    (hc : checkStatusRegister twsr (expectedCode r.twi.mode) = true) (received : Byte) :
    Underway s (r.step (.vect twsr received)) ∨ Ended s (r.step (.vect twsr received)) := by
  have hgo : Advance s r (twsr, received) (vectGo r.twi received) (dataAccess r.twi twsr) := by
    by_cases hw : s.mAction = .write
    · exact h.write hs hw hc received
    · exact h.read hs hw hc received
  have hsame := h.same.vect twsr received
  have hpassed : (loaded s).Passed (r.seen ++ [(twsr, received)]) := by
    rw [TwiRequest.passed_append, ← h.mode]
    exact ⟨h.passed, hc⟩
  have haccesses : ∀ i ∈ r.accesses ++ dataAccess r.twi twsr, i < (loaded s).len := by
    intro i hi
    exact (List.mem_append.mp hi).elim (h.accesses i) (hgo.accessed i)
  have hlen : (r.seen ++ [(twsr, received)]).length = r.seen.length + 1 := by
    rw [List.length_append, List.length_singleton]
  have hmore := h.more
  rw [h.step_vect]
  rw [twiVect_passed hc] at hsame ⊢
  by_cases hlast : r.seen.length + 1 < (loaded s).interrupts
  · left
    have hevent : ((loaded s).traffic (ownAddress s))[r.seen.length + 1]? =
        some (busEvent (vectGo r.twi received)) := by
      have hbound := hlast
      rw [← TwiRequest.traffic_length _ (ownAddress s)] at hbound
      rw [hgo.event, List.getElem?_eq_getElem hbound]
      rfl
    refine ⟨hsame, ?_, ?_, hpassed, ?_, ?_, haccesses, hgo.status.trans h.status, hgo.data,
      h.reports⟩
    · rw [hlen]
      exact hgo.mode.trans (if_pos hlast)
    · rw [hlen]
      exact hlast
    · rw [hlen]
      exact hgo.index
    · rw [hlen, List.take_add_one (i := r.seen.length + 1), hevent, ← h.bus]
      rfl
  · right
    have hend : r.seen.length + 1 = (loaded s).interrupts := by omega
    have hevent : busEvent (vectGo r.twi received) = .stop := by
      rw [hgo.event, List.getElem?_eq_none (by rw [TwiRequest.traffic_length]; omega)]
      rfl
    refine ⟨⟨?_, fun _ => ?_, ?_, haccesses⟩, hsame, hgo.mode.trans (if_neg hlast), ?_, hgo.data,
      h.reports⟩
    · rw [hlen, hend]
    · rw [hlen, hend]
    · rw [hlen, hevent, ← h.bus]
    · rw [TwiRequest.recorded, if_pos hpassed]
      exact hgo.status.trans h.status

/-! ### The main loop meanwhile -/

theorem SameRequest.queue {s t : Twi} (h : SameRequest s t) (q : Buffer) :
    SameRequest s { t with queue := q } :=
  ⟨h.action, h.tag, h.id, h.reg, h.max, h.address⟩

/-- The main loop leaves the record alone. -/
theorem Recorded.main {s : Twi} {r : TwiLog} (h : Recorded s r) (t : Twi)
    (reports : List TwiReport) : Recorded s { r with twi := t, reports := reports } :=
  ⟨h.length_le, h.whole, h.bus, h.accesses⟩

/-- The transaction has ended, with or without the callback. -/
def Done (s : Twi) (r : TwiLog) : Prop := Ended s r ∨ Reported s r

theorem Done.mode {s : Twi} {r : TwiLog} (h : Done s r) : r.twi.mode = .idle :=
  h.elim (·.mode) (·.mode)

theorem Done.recorded {s : Twi} {r : TwiLog} (h : Done s r) : Recorded s r :=
  h.elim (·.toRecorded) (·.toRecorded)

/-- The callback is called once: afterwards `m_action` is idle. -/
theorem done_step {s : Twi} (hs : Taken s) (r : TwiLog) (e : TwiEvent) (h : Done s r)
    (hc : Current r e) : Done s (r.step e) := by
  have hmode := h.mode
  cases e with
  | call request =>
    rw [TwiLog.step, twiCall_frame]
    rcases h with h | h
    · exact .inl ⟨h.toRecorded.main _ _, h.same.queue _, h.mode, h.status, h.data, h.reports⟩
    · exact .inr ⟨h.toRecorded.main _ _, h.mode, h.action, h.reports⟩
  | twiTry =>
    rcases h with h | h
    · have haction : r.twi.mAction ≠ .idle := by
        rw [h.same.action]
        exact hs.action
      have htry : twiTry r.twi = (actionReset r.twi, some (twiReport r.twi)) := by
        rw [twiTry, if_neg (not_not.mpr hmode), if_pos haction]
      rw [TwiLog.step, htry, h.twiReport, h.reports]
      exact .inr ⟨h.toRecorded.main _ _, h.mode, rfl, rfl⟩
    · have hsize : ¬ (bufferSize r.twi.queue).toNat > 0 := fun hsize =>
        hc rfl ⟨hmode, h.action, hsize⟩
      have htry : twiTry r.twi = (r.twi, none) := by
        rw [twiTry, if_neg (not_not.mpr hmode), if_neg (not_not.mpr h.action), if_neg hsize]
      rw [TwiLog.step, htry]
      exact .inr ⟨h.toRecorded.main _ _, h.mode, h.action, by rw [h.reports]; rfl⟩
  | vect twsr received =>
    rw [TwiLog.step, if_pos hmode]
    exact h

theorem Underway.step {s : Twi} {r : TwiLog} (hs : Taken s) (h : Underway s r) (e : TwiEvent) :
    Underway s (r.step e) ∨ Done s (r.step e) := by
  cases e with
  | call request =>
    rw [TwiLog.step, twiCall_frame]
    exact .inl ⟨h.same.queue _, h.mode, h.more, h.passed, h.index, h.bus, h.accesses, h.status,
      h.data, h.reports⟩
  | twiTry =>
    have htry : twiTry r.twi = (r.twi, none) := by rw [twiTry, if_pos h.busy]
    rw [TwiLog.step, htry]
    exact .inl ⟨h.same, h.mode, h.more, h.passed, h.index, h.bus, h.accesses, h.status, h.data,
      by rw [h.reports]; rfl⟩
  | vect twsr received =>
    cases hc : checkStatusRegister twsr (expectedCode r.twi.mode) with
    | false => exact .inr (.inl (h.fail hc received))
    | true => exact (h.pass hs hc received).imp_right .inl

theorem progress_step {s : Twi} (hs : Taken s) (r : TwiLog) (e : TwiEvent)
    (h : Underway s r ∨ Done s r) (hc : Current r e) :
    Underway s (r.step e) ∨ Done s (r.step e) :=
  h.elim (fun h => h.step hs e) fun h => .inr (done_step hs r e h hc)

/-- The interrupts of a run. -/
def vects (es : List TwiEvent) : ℕ :=
  es.countP fun e => match e with
    | .vect _ _ => true
    | _ => false

/-- A transaction that has not ended has seen every interrupt. -/
theorem vects_seen {s : Twi} (hs : Taken s) {r : TwiLog} (h : Underway s r ∨ Done s r)
    {es : List TwiEvent} (hc : Along TwiLog.step Current r es)
    (hmode : (run TwiLog.step r es).twi.mode ≠ .idle) :
    (run TwiLog.step r es).seen.length = r.seen.length + vects es := by
  induction es generalizing r with
  | nil => rfl
  | cons e es ih =>
    obtain ⟨hce, hces⟩ := hc
    have hnext := ih (progress_step hs r e h hce) hces hmode
    rcases h with h | h
    · rw [run_cons, hnext]
      unfold vects
      cases e with
      | call request => rw [List.countP_cons_of_neg (by simp)]; rfl
      | twiTry => rw [List.countP_cons_of_neg (by simp)]; rfl
      | vect twsr received =>
        rw [List.countP_cons_of_pos rfl, h.step_vect, List.length_append, List.length_singleton]
        omega
    · have hdone := run_invariant (done_step hs) (done_step hs r e h hce) hces
      exact absurd hdone.mode hmode

/-! ### How it begins -/

theorem lenOf_le : ∀ header : Byte, (lenOf header).toNat ≤ 127 := by decide +kernel

theorem actionData_length (q : Buffer) (data : List Byte) (i k : ℕ) :
    (actionData q data i k).2.length = data.length := by
  induction k generalizing q data i with
  | zero => rfl
  | succ k ih =>
    rw [actionData]
    split
    · rw [ih, List.length_set]
    · rfl

/-- A header that is not there leaves the action as it was. -/
theorem actionSet_cases (t : Twi) :
    (actionSet t).status = t.status ∧ (actionSet t).mData.length = t.mData.length ∧
      ((actionSet t).mAction = t.mAction ∨
        (actionSet t).mIndex = 0 ∧ (actionSet t).mMaxIndex.toNat ≤ 127) := by
  unfold actionSet
  split
  · exact ⟨rfl, rfl, .inl rfl⟩
  · dsimp only
    split_ifs
    · exact ⟨rfl, actionData_length _ _ _ _, .inr ⟨rfl, lenOf_le _⟩⟩
    · exact ⟨rfl, rfl, .inr ⟨rfl, lenOf_le _⟩⟩

theorem twiTry_dequeues {t : Twi} (h : Dequeues t) :
    twiTry t = (start (actionSet t)
      (if (actionSet t).mAction = .write then .writeStart else .readStart), none) := by
  obtain ⟨hmode, haction, hsize⟩ := h
  rw [twiTry, if_neg (not_not.mpr hmode), if_neg (not_not.mpr haction), if_pos hsize]

theorem data_step (r : TwiRun) (e : TwiEvent) (h : r.twi.mData.length = maxLen) :
    (r.step e).twi.mData.length = maxLen := by
  cases e with
  | call request =>
    rw [TwiRun.step, twiCall_frame]
    exact h
  | twiTry =>
    have hset := (actionSet_cases r.twi).2.1
    change (twiTry r.twi).1.mData.length = maxLen
    unfold twiTry
    split_ifs
    · exact h
    · exact List.length_replicate
    · exact hset.trans h
    · exact h
  | vect twsr received => exact (twiVect_frame r.twi twsr received).2.2.2.trans h

/-- The driver once `twi_slave` has been called for the slaves there are. -/
def TwiRun.slaves (address : List Byte) : TwiRun :=
  { TwiRun.start with twi := { twiInit with mAddress := address } }

/-- `twi_try` takes a request of at least one byte off the queue. -/
structure Takes (t : Twi) : Prop where
  dequeues : Dequeues t
  action : (twiTry t).1.mAction ≠ .idle
  pos : 1 ≤ (twiTry t).1.mMaxIndex.toNat

/-- Some calls, `twi_try`s and interrupts lead to `t`. -/
def Reached (t : Twi) : Prop :=
  ∃ address es, t = (run TwiRun.step (.slaves address) es).twi

theorem Reached.data {t : Twi} (h : Reached t) : t.mData.length = maxLen := by
  obtain ⟨address, es, rfl⟩ := h
  exact run_keeps data_step es rfl

/-- The first phase, when the start has been sent. -/
theorem begin_fetched {t : Twi} (hd : Dequeues t) (ha : (twiTry t).1.mAction ≠ .idle)
    (hdata : t.mData.length = maxLen) :
    Fetched (twiTry t).1 ∧ (twiTry t).1.mIndex = 0 ∧
      (twiTry t).1.mode = (loaded (twiTry t).1).phase 0 := by
  have hset := actionSet_cases t
  have htry := congrArg Prod.fst (twiTry_dequeues hd)
  obtain ⟨-, hidle, -⟩ := hd
  obtain ⟨-, hlength, hheader⟩ := hset
  have hmode : (twiTry t).1.mode =
      if (twiTry t).1.mAction = .write then .writeStart else .readStart := by
    rw [htry]
    unfold start
    dsimp only
    split_ifs <;> first | rfl | contradiction
  have hheader' : (twiTry t).1.mIndex = 0 ∧ (twiTry t).1.mMaxIndex.toNat ≤ 127 := by
    rw [htry] at ha ⊢
    refine hheader.resolve_left fun hsame => ha ?_
    exact hsame.trans hidle
  have hlength' : (twiTry t).1.mData.length = maxLen := by
    rw [htry]
    exact hlength.trans hdata
  refine ⟨⟨ha, hheader'.2, hlength'⟩, hheader'.1, ?_⟩
  rw [hmode]
  by_cases hw : (twiTry t).1.mAction = .write
  · rw [if_pos hw, Taken.opening_write hw]
    rfl
  · rw [if_neg hw, Taken.opening_read hw]
    rfl

theorem begin_underway {t : Twi} (h : Takes t) (hdata : t.mData.length = maxLen) :
    Taken (twiTry t).1 ∧ Underway (twiTry t).1 (.begin (twiTry t).1) := by
  obtain ⟨hfetched, hindex, hmode⟩ := begin_fetched h.dequeues h.action hdata
  have hs : Taken (twiTry t).1 := ⟨hfetched, h.pos⟩
  generalize (twiTry t).1 = s at *
  have hnone : (loaded s).received [] = [] := TwiRequest.received_opening (Nat.zero_le _)
  refine ⟨hs, ⟨rfl, rfl, rfl, rfl, rfl, rfl⟩, hmode, ?_, ?_, ?_, ?_, ?_, rfl, ?_, rfl⟩
  · have hlen := hs.len
    change 0 < (loaded s).interrupts
    have hpos := hs.pos
    unfold TwiRequest.interrupts
    omega
  · intro p hp
    cases hp
  · change s.mIndex.toNat = 0 - _
    rw [hindex, Nat.zero_sub]
    rfl
  · change [BusEvent.start] = ((loaded s).traffic (ownAddress s)).take 1
    cases loaded s <;> rfl
  · intro i hi
    cases hi
  · change s.mData = (loaded s).received [] ++ s.mData.drop ((loaded s).received []).length
    rw [hnone]
    rfl

/-- What a transaction has done so far, and how it ends. -/
structure Transacted (s : Twi) (es : List TwiEvent) (r : TwiLog) : Prop where
  interrupts : r.seen.length ≤ (loaded s).len + 5
  ends : (loaded s).len + 5 ≤ vects es → r.twi.mode = .idle
  accesses : ∀ i ∈ r.accesses, i < (loaded s).len
  bus : r.bus =
    if r.twi.mode = .idle then ((loaded s).traffic (ownAddress s)).take r.seen.length ++ [.stop]
    else ((loaded s).traffic (ownAddress s)).take (r.seen.length + 1)
  full : r.twi.mode = .idle → (loaded s).Passed r.seen →
    r.bus = (loaded s).traffic (ownAddress s) ++ [.stop]
  bytes : r.twi.mode = .idle → (loaded s).Passed r.seen → s.mAction = .read →
    (loaded s).received r.seen = (r.seen.drop 5).map Prod.snd ∧
      ((loaded s).received r.seen).length = (loaded s).len
  called : r.reports = [] ∧
      (r.twi.mode = .idle →
        (twiTry r.twi).2 = some ((loaded s).report s.status s.mData r.seen)) ∨
    r.twi.mode = .idle ∧ r.reports = [(loaded s).report s.status s.mData r.seen]

theorem Ended.called {s : Twi} (hs : Taken s) {r : TwiLog} (h : Ended s r) :
    (twiTry r.twi).2 = some ((loaded s).report s.status s.mData r.seen) := by
  have haction : r.twi.mAction ≠ .idle := by
    rw [h.same.action]
    exact hs.action
  rw [twiTry, if_neg (not_not.mpr h.mode), if_pos haction, ← h.twiReport]

theorem TwiRequest.interrupts_le (request : TwiRequest) :
    request.interrupts ≤ request.len + 5 := by
  cases request with
  | write id tag reg data =>
    change 3 + data.length ≤ data.length + 5
    omega
  | read id tag reg len =>
    change 5 + len.toNat ≤ len.toNat + 5
    omega

theorem Underway.transacted {s : Twi} {r : TwiLog} (h : Underway s r) {es : List TwiEvent}
    (hseen : r.seen.length = vects es) : Transacted s es r := by
  have hle := TwiRequest.interrupts_le (loaded s)
  have hmore := h.more
  refine ⟨by omega, fun hvects => ?_, h.accesses, ?_, fun hidle => absurd hidle h.busy,
    fun hidle => absurd hidle h.busy, .inl ⟨h.reports, fun hidle => absurd hidle h.busy⟩⟩
  · omega
  · rw [if_neg h.busy]
    exact h.bus

theorem Done.transacted {s : Twi} (hs : Taken s) {r : TwiLog} (h : Done s r)
    (es : List TwiEvent) : Transacted s es r := by
  have hle := TwiRequest.interrupts_le (loaded s)
  have hrecord := h.recorded
  have hlength := hrecord.length_le
  refine ⟨by omega, fun _ => h.mode, hrecord.accesses, ?_, fun _ hp => ?_, fun _ hp hread => ?_,
    h.elim (fun h => .inl ⟨h.reports, fun _ => h.called hs⟩) fun h => .inr ⟨h.mode, h.reports⟩⟩
  · rw [if_pos h.mode]
    exact hrecord.bus
  · rw [hrecord.bus, hrecord.whole hp,
      List.take_of_length_le (TwiRequest.traffic_length _ _).le]
  · have hwhole := hrecord.whole hp
    have hload : loaded s = .read s.mId s.mTag s.mReg s.mMaxIndex :=
      Taken.opening_read (by rw [hread]; exact TwiAction.noConfusion)
    rw [hload] at hp hwhole ⊢
    change r.seen.length = 5 + s.mMaxIndex.toNat at hwhole
    rw [TwiRequest.received_passed hp]
    refine ⟨rfl, ?_⟩
    rw [List.length_map, List.length_drop, hwhole, Nat.add_sub_cancel_left]
    rfl

theorem Takes.progress {t : Twi} (h : Takes t) (hreach : Reached t) {es : List TwiEvent}
    (hc : Along TwiLog.step Current (.begin (twiTry t).1) es) :
    Taken (twiTry t).1 ∧
      (Underway (twiTry t).1 (run TwiLog.step (.begin (twiTry t).1) es) ∨
        Done (twiTry t).1 (run TwiLog.step (.begin (twiTry t).1) es)) := by
  obtain ⟨hs, hbegin⟩ := begin_underway h hreach.data
  exact ⟨hs, run_invariant (progress_step hs) (.inl hbegin) hc⟩

/-- From any reachable state in which `twi_try` takes a request of at least one
byte, and whatever the interrupts find while the main loop goes on. -/
theorem transaction_runs {t : Twi} (hreach : Reached t) (ht : Takes t) {es : List TwiEvent}
    (hc : Along TwiLog.step Current (.begin (twiTry t).1) es) :
    Transacted (twiTry t).1 es (run TwiLog.step (.begin (twiTry t).1) es) := by
  obtain ⟨hs, hbegin⟩ := begin_underway ht hreach.data
  have hseen := vects_seen hs (.inl hbegin) hc
  rcases (ht.progress hreach hc).2 with h | h
  · exact h.transacted ((hseen h.busy).trans (Nat.zero_add _))
  · exact h.transacted hs es

/-- One request for three bytes. -/
def readRequested : Twi := (run TwiRun.step (.slaves [0x68]) [.call (.read 0 8 3 3)]).twi

def readEvents : List TwiEvent :=
  [.vect 0x08 0, .vect 0x18 0, .twiTry, .vect 0x28 0, .vect 0x10 0, .vect 0x40 0,
    .call (.write 0 9 2 [1]), .vect 0x50 7, .vect 0x50 8, .vect 0x50 9, .twiTry]

theorem transaction_runs_read :
    Transacted (twiTry readRequested).1 readEvents
      (run TwiLog.step (.begin (twiTry readRequested).1) readEvents) :=
  transaction_runs ⟨[0x68], [.call (.read 0 8 3 3)], rfl⟩
    ⟨by decide +kernel, by decide +kernel, by decide +kernel⟩ (by decide +kernel)

end LedServer.AvrTwi
