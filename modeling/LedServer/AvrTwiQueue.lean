import LedServer.Machine
import LedServer.AvrBuffer
import LedServer.AvrTwi

set_option autoImplicit false

/-!
# The TWI request queue

Requests are records of variable size in a ring of bytes. What is taken off
the queue is compared with what the calls that returned 1 asked for.
-/
namespace LedServer.AvrTwi
open AvrRing Machine

inductive TwiRequest where
  | write (id tag reg : Byte) (data : List Byte)
  | read (id tag reg len : Byte)
deriving DecidableEq

/-- The record the two array functions put into the queue. -/
def TwiRequest.record : TwiRequest → List Byte
  | .write id tag reg data => [headerWrite (BitVec.ofNat 8 data.length), id, tag, reg] ++ data
  | .read id tag reg len => [headerRead len, id, tag, reg]

def TwiRequest.id : TwiRequest → Byte
  | .write id _ _ _ => id
  | .read id _ _ _ => id

def TwiRequest.len : TwiRequest → ℕ
  | .write _ _ _ data => data.length
  | .read _ _ _ len => len.toNat

/-- What `action_set` has put into the `m_` variables. -/
def loaded (t : Twi) : TwiRequest :=
  if t.mAction = .write then .write t.mId t.mTag t.mReg (t.mData.take t.mMaxIndex.toNat)
  else .read t.mId t.mTag t.mReg t.mMaxIndex

inductive TwiEvent where
  | call (request : TwiRequest)
  | twiTry
  | vect (twsr received : Byte)
deriving DecidableEq

/-- `twi_write_array` for a write of at most 255 bytes, `twi_read_array` for a
read. -/
def twiCall (t : Twi) : TwiRequest → Twi × Bool
  | .write id tag reg data => twiWriteArray t id tag (BitVec.ofNat 8 data.length) reg data
  | .read id tag reg len => twiReadArray t id tag len reg

/-- `twi_try` is about to take a request off the queue. -/
def Dequeues (t : Twi) : Prop :=
  t.mode = .idle ∧ t.mAction = .idle ∧ 0 < (bufferSize t.queue).toNat

instance (t : Twi) : Decidable (Dequeues t) := inferInstanceAs (Decidable (_ ∧ _ ∧ _))

/-- The driver with the record of its run: the requests whose call returned 1,
the requests taken off the queue, the callbacks invoked. -/
structure TwiRun where
  twi : Twi
  accepted : List TwiRequest
  dequeued : List TwiRequest
  reports : List TwiReport

def TwiRun.start : TwiRun := ⟨twiInit, [], [], []⟩

def TwiRun.step (r : TwiRun) : TwiEvent → TwiRun
  | .call request =>
    { r with
      twi := (twiCall r.twi request).1
      accepted := r.accepted ++ if (twiCall r.twi request).2 then [request] else [] }
  | .twiTry =>
    { r with
      twi := (twiTry r.twi).1
      dequeued := r.dequeued ++ if Dequeues r.twi then [loaded (twiTry r.twi).1] else []
      reports := r.reports ++ (twiTry r.twi).2.toList }
  | .vect twsr received => { r with twi := twiVect r.twi twsr received }

/-- A call for fewer than 128 bytes, or for 128 when there is no room for them,
whose record does not fill the queue exactly behind a positive `start`. The
length has to fit the 8 bits of the C interface. -/
def CallSound (r : TwiRun) : TwiEvent → Prop
  | .call request => request.len < 256 ∧
      (request.len = 128 → 255 < r.twi.queue.contents.length + request.record.length) ∧
      ¬ (0 < r.twi.queue.start.toNat ∧
        r.twi.queue.contents.length + request.record.length = 255)
  | _ => True

instance (r : TwiRun) (e : TwiEvent) : Decidable (CallSound r e) := by
  cases e <;> unfold CallSound <;> infer_instance

/-! ### One record -/

theorem header_write : ∀ len : Byte, len.toNat ≤ 127 →
    actionOf (headerWrite len) = .write ∧ lenOf (headerWrite len) = len := by
  decide +kernel

theorem header_read : ∀ len : Byte, len.toNat ≤ 127 →
    actionOf (headerRead len) = .read ∧ lenOf (headerRead len) = len := by
  decide +kernel

/-- Only the last byte of a fill can meet `start`, so a fill with room for all
its bytes is never given up. -/
theorem twiFill_eq {q : Buffer} (h : q.Valid) (bytes : List Byte)
    (room : q.count + bytes.length ≤ 255) : twiFill q bytes = (fillAll q bytes, true) := by
  induction bytes generalizing q with
  | nil => rfl
  | cons b bytes ih =>
    simp only [List.length_cons] at room
    have hs : (255 : Byte).toNat = 255 := rfl
    have hfill := byteFill_eq h (by omega) b
    have hdone : (ringByteFill q b).2 = true := by rw [hfill]
    have hpair : bufferByteFill q b = ((ringByteFill q b).1, true) := by
      rw [← hdone]; rfl
    rw [twiFill, hpair]
    dsimp only
    rw [fillAll_cons]
    cases bytes with
    | nil => rfl
    | cons c bytes =>
      simp only [List.length_cons] at room ih
      have hcount := byteFill_count h (by omega) b
      rw [if_neg (by omega)] at hcount
      exact ih (byteFill_valid h b) (by rw [hcount]; omega)

theorem actionHeader_eq {q : Buffer} (h : q.Valid) {a i t r : Byte} {rest : List Byte}
    (hc : q.contents = a :: i :: t :: r :: rest) :
    ∃ q' : Buffer, actionHeader q = (q', some (a, i, t, r)) ∧ q'.Valid ∧ q'.contents = rest := by
  obtain ⟨q1, e1, v1, c1⟩ := bufferByteDrain_cons h hc
  obtain ⟨q2, e2, v2, c2⟩ := bufferByteDrain_cons v1 c1
  obtain ⟨q3, e3, v3, c3⟩ := bufferByteDrain_cons v2 c2
  obtain ⟨q4, e4, v4, c4⟩ := bufferByteDrain_cons v3 c3
  exact ⟨q4, by simp only [actionHeader, e1, e2, e3, e4], v4, c4⟩

theorem actionData_eq {q : Buffer} (h : q.Valid) (array : List Byte) (i : ℕ)
    (data : List Byte) {rest : List Byte} (hc : q.contents = data ++ rest) :
    ∃ q' : Buffer, actionData q array i data.length = (q', storeFrom array i data) ∧
      q'.Valid ∧ q'.contents = rest := by
  induction data generalizing q array i with
  | nil => exact ⟨q, rfl, h, by simpa using hc⟩
  | cons b data ih =>
    obtain ⟨q1, e1, v1, c1⟩ := bufferByteDrain_cons h hc
    obtain ⟨q', he, hv, hq⟩ := ih v1 (array.set i b) (i + 1) c1
    refine ⟨q', ?_, hv, hq⟩
    rw [List.length_cons, actionData, e1]
    exact he

/-! ### What each call does -/

/-- What the two array functions check before they touch the queue. -/
structure TwiRequest.Sound (request : TwiRequest) : Prop where
  id_lt : request.id < twiIdSize
  len_pos : 1 ≤ request.len
  len_le : request.len ≤ 127

theorem twiWriteArray_cases {t : Twi} (h : t.queue.Valid) (id tag reg : Byte) (data : List Byte)
    (hlen : data.length < 256) :
    twiCall t (.write id tag reg data) = (t, false) ∨
      (id < twiIdSize ∧ 1 ≤ data.length ∧ t.queue.count + (data.length + 4) ≤ 255 ∧
        data.length ≤ 128 ∧ twiCall t (.write id tag reg data) =
          ({ t with queue := fillAll t.queue (TwiRequest.write id tag reg data).record }, true)) := by
  have hn : (BitVec.ofNat 8 data.length).toNat = data.length := by bv_omega
  have hspace : (bufferSpace t.queue).toNat = 255 - t.queue.count := ringSpace_toNat h
  have hcount := count_le h
  unfold twiCall twiWriteArray
  dsimp only
  split_ifs with hc
  · exact .inl rfl
  · rw [hn, hspace] at hc
    simp only [not_or, not_lt, ge_iff_le, overhead, maxLen] at hc
    obtain ⟨hid, hzero, hmax, hroom⟩ := hc
    have hpos : 1 ≤ data.length := by
      rcases Nat.eq_zero_or_pos data.length with hz | hp
      · exact absurd (by rw [hz]; rfl) hzero
      · exact hp
    refine .inr ⟨BitVec.not_le.mp hid, hpos, by omega, hmax, ?_⟩
    have hfill := twiFill_eq h (TwiRequest.write id tag reg data).record
      (by simp only [TwiRequest.record, List.length_append, List.length_cons,
        List.length_nil]; omega)
    rw [TwiRequest.record] at hfill
    rw [hn, List.take_length, hfill, TwiRequest.record]

theorem twiReadArray_cases {t : Twi} (h : t.queue.Valid) (id tag reg len : Byte) :
    twiCall t (.read id tag reg len) = (t, false) ∨
      (id < twiIdSize ∧ 1 ≤ len.toNat ∧ t.queue.count + 4 ≤ 255 ∧
        len.toNat ≤ 128 ∧ twiCall t (.read id tag reg len) =
          ({ t with queue := fillAll t.queue (TwiRequest.read id tag reg len).record }, true)) := by
  have hspace : (bufferSpace t.queue).toNat = 255 - t.queue.count := ringSpace_toNat h
  have hcount := count_le h
  unfold twiCall twiReadArray
  dsimp only
  split_ifs with hc
  · exact .inl rfl
  · rw [hspace] at hc
    simp only [not_or, not_lt, ge_iff_le, overhead, maxLen] at hc
    obtain ⟨hid, hzero, hmax, hroom⟩ := hc
    have hpos : 1 ≤ len.toNat := by bv_omega
    refine .inr ⟨BitVec.not_le.mp hid, hpos, by omega, hmax, ?_⟩
    have hfill := twiFill_eq h (TwiRequest.read id tag reg len).record
      (by simp only [TwiRequest.record, List.length_cons, List.length_nil]; omega)
    rw [TwiRequest.record] at hfill
    rw [hfill, TwiRequest.record]

/-- One statement for both: refused and nothing has changed, or accepted and
the whole record has been put in. -/
theorem twiCall_cases {t : Twi} (h : t.queue.Valid) (request : TwiRequest)
    (hlen : request.len < 256) :
    twiCall t request = (t, false) ∨
      (request.id < twiIdSize ∧ 1 ≤ request.len ∧
        t.queue.count + request.record.length ≤ 255 ∧
        request.len ≤ 128 ∧ twiCall t request = ({ t with queue := fillAll t.queue request.record }, true)) := by
  cases request with
  | write id tag reg data =>
    have hr : (TwiRequest.write id tag reg data).record.length = data.length + 4 := by
      simp [TwiRequest.record]
    rw [hr]
    exact twiWriteArray_cases h id tag reg data hlen
  | read id tag reg len => exact twiReadArray_cases h id tag reg len

/-- A record taken off the queue is the request it was made from. -/
theorem actionSet_loaded {t : Twi} (h : t.queue.Valid) (hdata : t.mData.length = maxLen)
    {request : TwiRequest} (hs : request.Sound) {rest : List Byte}
    (hc : t.queue.contents = request.record ++ rest) :
    loaded (actionSet t) = request ∧ (actionSet t).queue.Valid ∧
      (actionSet t).queue.contents = rest ∧ (actionSet t).mAction ≠ .idle ∧
      (actionSet t).mId = request.id ∧ (actionSet t).mData.length = maxLen := by
  obtain ⟨-, hpos, hle⟩ := hs
  cases request with
  | write id tag reg data =>
    simp only [TwiRequest.len] at hpos hle
    have hn : (BitVec.ofNat 8 data.length).toNat = data.length := by bv_omega
    obtain ⟨ha, hl⟩ := header_write (BitVec.ofNat 8 data.length) (by omega)
    obtain ⟨q1, e1, v1, c1⟩ := actionHeader_eq h hc
    obtain ⟨q2, e2, v2, c2⟩ := actionData_eq v1 t.mData 0 data c1
    have hset : actionSet t =
        { t with
          queue := q2, mAction := .write, mIndex := 0, mMaxIndex := BitVec.ofNat 8 data.length,
          mId := id, mTag := tag, mReg := reg, mData := storeFrom t.mData 0 data } := by
      simp only [actionSet, e1, ha, hl, hn, e2, ↓reduceIte]
    have htake : (storeFrom t.mData 0 data).take data.length = data := by
      rw [storeFrom_eq _ _ _ (by rw [hdata, maxLen]; omega)]
      simp
    rw [hset]
    refine ⟨?_, v2, c2, by simp, rfl, by rw [storeFrom_length, hdata]⟩
    simp only [loaded, ↓reduceIte, hn, htake]
  | read id tag reg len =>
    simp only [TwiRequest.len] at hpos hle
    obtain ⟨ha, hl⟩ := header_read len hle
    obtain ⟨q1, e1, v1, c1⟩ := actionHeader_eq h hc
    have hset : actionSet t =
        { t with
          queue := q1, mAction := .read, mIndex := 0, mMaxIndex := len,
          mId := id, mTag := tag, mReg := reg } := by
      simp [actionSet, e1, ha, hl]
    rw [hset]
    exact ⟨by simp [loaded], v1, c1, by simp, rfl, hdata⟩

theorem twiVect_frame (t : Twi) (twsr received : Byte) :
    (twiVect t twsr received).queue = t.queue ∧
      (twiVect t twsr received).mAction = t.mAction ∧ (twiVect t twsr received).mId = t.mId ∧
      (twiVect t twsr received).mData.length = t.mData.length := by
  unfold twiVect vectPhase stop
  cases t.mode <;> dsimp only <;> (try split_ifs) <;> simp

/-! ### The invariant of a run -/

structure Holds (r : TwiRun) (pending : List TwiRequest) : Prop where
  valid : r.twi.queue.Valid
  records : r.twi.queue.contents = pending.flatMap TwiRequest.record
  split : r.accepted = r.dequeued ++ pending
  sound : ∀ p ∈ pending, p.Sound
  current : r.twi.mAction ≠ .idle → r.twi.mId < twiIdSize
  reported : ∀ p ∈ r.reports, p.id < twiIdSize
  data : r.twi.mData.length = maxLen

theorem start_holds : Holds .start [] where
  valid := ringInit_valid (by decide)
  records := ringInit_contents 255
  split := rfl
  sound := by simp
  current := fun h => absurd rfl h
  reported := by simp [TwiRun.start]
  data := List.length_replicate

theorem record_ne_nil (request : TwiRequest) : request.record ≠ [] := by
  cases request <;> simp [TwiRequest.record]

theorem call_holds {r : TwiRun} {pending : List TwiRequest} (h : Holds r pending)
    (request : TwiRequest) (hc : CallSound r (.call request)) :
    ∃ pending, Holds (r.step (.call request)) pending := by
  obtain ⟨hlen, hlong, hsafe⟩ := hc
  rcases twiCall_cases h.valid request hlen with hno | ⟨hid, hpos, hroom, hmax, hyes⟩
  · refine ⟨pending, ?_⟩
    simp only [TwiRun.step, hno, Bool.false_eq_true, ↓reduceIte, List.append_nil]
    exact h
  · rw [contents_length] at hlong hsafe
    have hle : request.len ≤ 127 := by omega
    have hfill : (fillAll r.twi.queue request.record).contents =
        r.twi.queue.contents ++ request.record :=
      fillAll_contents h.valid _ hroom fun ⟨hs, _, hf⟩ => hsafe ⟨hs, hf⟩
    refine ⟨pending ++ [request], ?_⟩
    simp only [TwiRun.step, hyes, ↓reduceIte]
    refine ⟨fillAll_valid h.valid _, ?_, ?_, ?_, h.current, h.reported, h.data⟩
    · simp only [hfill, h.records, List.flatMap_append, List.flatMap_singleton]
    · simp only [h.split, List.append_assoc]
    · intro p hp
      rcases List.mem_append.mp hp with hp | hp
      · exact h.sound p hp
      · rw [List.mem_singleton.mp hp]
        exact ⟨hid, hpos, hle⟩

/-- The next request taken off the queue is the oldest pending one. -/
theorem dequeue_holds {r : TwiRun} {pending : List TwiRequest} (h : Holds r pending)
    (hd : Dequeues r.twi) :
    ∃ request rest, pending = request :: rest ∧ Holds (r.step .twiTry) rest ∧
      (r.step .twiTry).dequeued = r.dequeued ++ [request] := by
  obtain ⟨hmode, hidle, hsize⟩ := hd
  have hcount : 0 < r.twi.queue.count := hsize
  cases pending with
  | nil =>
    have hz : r.twi.queue.count = 0 := by rw [← contents_length, h.records]; rfl
    omega
  | cons request rest =>
    have hs := h.sound request List.mem_cons_self
    have hc : r.twi.queue.contents = request.record ++ rest.flatMap TwiRequest.record := by
      rw [h.records, List.flatMap_cons]
    obtain ⟨hl, hv, hq, ha, hi, hdata⟩ := actionSet_loaded h.valid h.data hs hc
    have htry : twiTry r.twi = (start (actionSet r.twi)
        (if (actionSet r.twi).mAction = .write then .writeStart else .readStart), none) := by
      simp [twiTry, hmode, hidle, hsize]
    have hload : loaded (start (actionSet r.twi)
        (if (actionSet r.twi).mAction = .write then .writeStart else .readStart)) = request := hl
    have hdeq : Dequeues r.twi := ⟨hmode, hidle, hsize⟩
    refine ⟨request, rest, rfl, ?_, ?_⟩
    · simp only [TwiRun.step, htry, hdeq, ↓reduceIte, hload, Option.toList_none, List.append_nil]
      refine ⟨hv, hq, ?_, fun p hp => h.sound p (List.mem_cons_of_mem _ hp), fun _ => ?_,
        h.reported, hdata⟩
      · rw [h.split, List.append_assoc, List.singleton_append]
      · change (actionSet r.twi).mId < twiIdSize
        rw [hi]
        exact hs.id_lt
    · simp only [TwiRun.step, htry, hdeq, ↓reduceIte, hload]

theorem try_keeps {r : TwiRun} {pending : List TwiRequest} (h : Holds r pending)
    (hd : ¬ Dequeues r.twi) : Holds (r.step .twiTry) pending := by
  simp only [TwiRun.step, hd, ↓reduceIte, List.append_nil]
  unfold twiTry
  split_ifs with hmode haction hsize
  · exact ⟨h.valid, h.records, h.split, h.sound, h.current, by simpa using h.reported, h.data⟩
  · refine ⟨h.valid, h.records, h.split, h.sound, fun hi => absurd rfl hi, ?_,
      List.length_replicate⟩
    intro p hp
    rcases List.mem_append.mp hp with hp | hp
    · exact h.reported p hp
    · have hreport : p = twiReport r.twi := by simpa using hp
      have hid : (twiReport r.twi).id = r.twi.mId := by
        unfold twiReport
        split <;> rfl
      rw [hreport, hid]
      exact h.current haction
  · exact absurd ⟨not_not.mp hmode, not_not.mp haction, hsize⟩ hd
  · exact ⟨h.valid, h.records, h.split, h.sound, h.current, by simpa using h.reported, h.data⟩

theorem vect_holds {r : TwiRun} {pending : List TwiRequest} (h : Holds r pending)
    (twsr received : Byte) : Holds (r.step (.vect twsr received)) pending := by
  obtain ⟨hq, ha, hi, hd⟩ := twiVect_frame r.twi twsr received
  refine ⟨?_, ?_, h.split, h.sound, ?_, h.reported, ?_⟩
  · change (twiVect r.twi twsr received).queue.Valid
    rw [hq]; exact h.valid
  · change (twiVect r.twi twsr received).queue.contents = _
    rw [hq]; exact h.records
  · change (twiVect r.twi twsr received).mAction ≠ .idle → (twiVect r.twi twsr received).mId < _
    rw [ha, hi]; exact h.current
  · change (twiVect r.twi twsr received).mData.length = _
    rw [hd]; exact h.data

theorem step_holds (r : TwiRun) (e : TwiEvent) (h : ∃ pending, Holds r pending)
    (hc : CallSound r e) : ∃ pending, Holds (r.step e) pending := by
  obtain ⟨pending, h⟩ := h
  cases e with
  | call request => exact call_holds h request hc
  | twiTry =>
    by_cases hd : Dequeues r.twi
    · obtain ⟨request, rest, -, hrest, -⟩ := dequeue_holds h hd
      exact ⟨rest, hrest⟩
    · exact ⟨pending, try_keeps h hd⟩
  | vect twsr received => exact ⟨pending, vect_holds h twsr received⟩

/-! ### Every pending request gets its turn -/

/-- An interrupt that ends the transaction and two `twi_try` calls: one reports
what has ended, the other takes the next request. -/
def serviceRound : List TwiEvent := [.vect 0 0, .twiTry, .twiTry]

theorem vect_ends (t : Twi) : (twiVect t 0 0).mode = .idle := by
  unfold twiVect vectPhase stop
  cases t.mode <;> rfl

theorem round_holds {r : TwiRun} {request : TwiRequest} {rest : List TwiRequest}
    (h : Holds r (request :: rest)) :
    Holds (run TwiRun.step r serviceRound) rest ∧
      (run TwiRun.step r serviceRound).accepted = r.accepted := by
  refine ⟨?_, rfl⟩
  have h1 := vect_holds h 0 0
  have hmode : (r.step (.vect 0 0)).twi.mode = .idle := vect_ends r.twi
  change Holds (((r.step (.vect 0 0)).step .twiTry).step .twiTry) rest
  generalize r.step (.vect 0 0) = r1 at h1 hmode
  have take : ∀ r2 : TwiRun, Holds r2 (request :: rest) → r2.twi.mode = .idle →
      r2.twi.mAction = .idle → Holds (r2.step .twiTry) rest ∧ Dequeues r2.twi := by
    intro r2 h2 hm ha
    have hcount : 0 < r2.twi.queue.count := by
      rw [← contents_length, h2.records, List.flatMap_cons, List.length_append]
      have hne := List.length_pos_of_ne_nil (record_ne_nil request)
      omega
    have hd : Dequeues r2.twi := ⟨hm, ha, hcount⟩
    obtain ⟨request', rest', heq, hrest, -⟩ := dequeue_holds h2 hd
    obtain ⟨-, rfl⟩ := List.cons.inj heq
    exact ⟨hrest, hd⟩
  by_cases ha : r1.twi.mAction = .idle
  · obtain ⟨h2, hd⟩ := take r1 h1 hmode ha
    have hbusy : ¬ Dequeues (r1.step .twiTry).twi := by
      rintro ⟨hm, -, -⟩
      obtain ⟨hm1, ha1, hs1⟩ := hd
      change (twiTry r1.twi).1.mode = .idle at hm
      rw [twiTry, if_neg (not_not.mpr hm1), if_neg (not_not.mpr ha1), if_pos hs1] at hm
      unfold start at hm
      dsimp only at hm
      split_ifs at hm
    exact try_keeps h2 hbusy
  · have hbusy : ¬ Dequeues r1.twi := fun hd => ha hd.2.1
    have h2 := try_keeps h1 hbusy
    have hreset : (r1.step .twiTry).twi = actionReset r1.twi := by
      change (twiTry r1.twi).1 = _
      rw [twiTry, if_neg (not_not.mpr hmode), if_pos ha]
    exact (take _ h2 (by rw [hreset]; exact hmode) (by rw [hreset]; rfl)).1

theorem rounds_holds {r : TwiRun} {pending : List TwiRequest} (h : Holds r pending) :
    ∃ s, s = run TwiRun.step r (pending.flatMap fun _ => serviceRound) ∧
      Holds s [] ∧ s.accepted = r.accepted := by
  induction pending generalizing r with
  | nil => exact ⟨r, rfl, h, rfl⟩
  | cons request rest ih =>
    obtain ⟨hr, ha⟩ := round_holds h
    obtain ⟨s, hs, hh, hacc⟩ := ih hr
    refine ⟨s, ?_, hh, by rw [hacc, ha]⟩
    rw [List.flatMap_cons, run_append, hs]

/-- The `twi_try` calls of a run that find the driver at rest. -/
def chances : TwiRun → List TwiEvent → ℕ
  | _, [] => 0
  | r, e :: es =>
    (if e = .twiTry ∧ r.twi.mode = .idle ∧ r.twi.mAction = .idle then 1 else 0) +
      chances (r.step e) es

theorem step_begins (r : TwiRun) (e : TwiEvent) :
    r.accepted <+: (r.step e).accepted ∧ r.dequeued <+: (r.step e).dequeued := by
  cases e with
  | call request => exact ⟨List.prefix_append _ _, List.prefix_rfl⟩
  | twiTry => exact ⟨List.prefix_rfl, List.prefix_append _ _⟩
  | vect twsr received => exact ⟨List.prefix_rfl, List.prefix_rfl⟩

theorem run_prefix (r : TwiRun) (es : List TwiEvent) :
    r.accepted <+: (run TwiRun.step r es).accepted := by
  induction es generalizing r with
  | nil => exact List.prefix_rfl
  | cons e es ih => exact (step_begins r e).1.trans (ih _)

/-- A chance is used whenever a request is pending. -/
theorem chance_used {r : TwiRun} {pending : List TwiRequest} (h : Holds r pending)
    (hm : r.twi.mode = .idle) (ha : r.twi.mAction = .idle) (hp : pending ≠ []) :
    (r.step .twiTry).dequeued.length = r.dequeued.length + 1 := by
  have hcount : 0 < r.twi.queue.count := by
    rw [← contents_length, h.records]
    obtain ⟨request, rest, rfl⟩ := List.exists_cons_of_ne_nil hp
    rw [List.flatMap_cons, List.length_append]
    have hne := List.length_pos_of_ne_nil (record_ne_nil request)
    omega
  obtain ⟨request, rest, -, -, hdeq⟩ := dequeue_holds h ⟨hm, ha, hcount⟩
  rw [hdeq, List.length_append, List.length_singleton]

theorem chances_used {r : TwiRun} (h : ∃ pending, Holds r pending) (es : List TwiEvent)
    (hc : Along TwiRun.step CallSound r es) :
    min r.accepted.length (r.dequeued.length + chances r es) ≤
      (run TwiRun.step r es).dequeued.length := by
  induction es generalizing r with
  | nil => simp [chances]
  | cons e es ih =>
    obtain ⟨hc, hcs⟩ := hc
    have hstep := ih (step_holds r e h hc) hcs
    have hacc := (step_begins r e).1.length_le
    have hdeq := (step_begins r e).2.length_le
    rw [run_cons, chances]
    split_ifs with hchance
    · obtain ⟨rfl, hm, ha⟩ := hchance
      obtain ⟨pending, h⟩ := h
      by_cases hp : pending = []
      · have hsplit := congrArg List.length h.split
        rw [hp, List.append_nil] at hsplit
        omega
      · have hone := chance_used h hm ha hp
        omega
    · omega

/-- In a run of sound calls the requests taken off the queue are the accepted
ones, each once and in order; every continuation that gives the pending ones
their chances takes them off, there is such a continuation, and no callback is
indexed out of range. -/
theorem requests_dequeued_in_order (es : List TwiEvent)
    (h : Along TwiRun.step CallSound .start es) :
    ∃ pending, (run TwiRun.step .start es).accepted =
        (run TwiRun.step .start es).dequeued ++ pending ∧
      (∀ more, Along TwiRun.step CallSound (run TwiRun.step .start es) more →
        pending.length ≤ chances (run TwiRun.step .start es) more →
        (run TwiRun.step .start es).accepted <+:
          (run TwiRun.step .start (es ++ more)).dequeued) ∧
      (run TwiRun.step .start (es ++ pending.flatMap fun _ => serviceRound)).dequeued =
        (run TwiRun.step .start es).accepted ∧
      (∀ report ∈ (run TwiRun.step .start es).reports, report.id < twiIdSize) := by
  have hinv := run_invariant step_holds ⟨[], start_holds⟩ h
  obtain ⟨pending, hh⟩ := hinv
  refine ⟨pending, hh.split, ?_, ?_, hh.reported⟩
  · intro more hmore hchances
    rw [run_append]
    have hused := chances_used ⟨pending, hh⟩ more hmore
    obtain ⟨later, hlater⟩ := run_invariant step_holds ⟨pending, hh⟩ hmore
    have hprefix := run_prefix (run TwiRun.step .start es) more
    have hlen := congrArg List.length hh.split
    rw [List.length_append] at hlen
    rw [hlater.split] at hprefix
    exact List.prefix_of_prefix_length_le hprefix (List.prefix_append _ _) (by omega)
  · obtain ⟨s, hs, hend, hacc⟩ := rounds_holds hh
    have hsplit := hend.split
    rw [List.append_nil, hacc, hs] at hsplit
    rw [run_append, ← hsplit]

theorem requests_dequeued_of_two :
    ∃ pending, (run TwiRun.step .start
        [.call (.write 0 7 2 [10, 20]), .call (.read 0 8 3 5), .twiTry]).accepted =
        (run TwiRun.step .start
          [.call (.write 0 7 2 [10, 20]), .call (.read 0 8 3 5), .twiTry]).dequeued ++ pending := by
  obtain ⟨pending, h, -⟩ := requests_dequeued_in_order
    [.call (.write 0 7 2 [10, 20]), .call (.read 0 8 3 5), .twiTry]
    (by refine ⟨?_, ?_, ?_, trivial⟩ <;> decide +kernel)
  exact ⟨pending, h⟩

/-- A request for 128 bytes, a documented length, is taken off the queue as one
for none. -/
theorem request_of_128_loses_length :
    (run TwiRun.step .start [.call (.read 0 8 3 128), .twiTry]).accepted = [.read 0 8 3 128] ∧
      (run TwiRun.step .start [.call (.read 0 8 3 128), .twiTry]).dequeued =
        [.read 0 8 3 0] := by
  decide +kernel

end LedServer.AvrTwi
