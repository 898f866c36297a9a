import LedServer.AvrMode
import LedServer.AvrTwiQueue

set_option autoImplicit false

/-!
# `INT2_vect` between the fills of a TWI request

The space is checked once, the record then goes in byte by byte, and the clock
interrupt puts records of its own into the same queue.
-/
namespace LedServer.AvrTwi
open AvrRing Machine

/-- The checks before the first fill. -/
def Refused (t : Twi) : TwiRequest → Prop
  | .write id _ _ data =>
    let len := BitVec.ofNat 8 data.length
    id ≥ twiIdSize ∨ len = 0 ∨ len.toNat > maxLen ∨
      (bufferSpace t.queue).toNat < len.toNat + overhead
  | .read id _ _ len =>
    id ≥ twiIdSize ∨ len = 0 ∨ len.toNat > maxLen ∨ (bufferSpace t.queue).toNat < overhead

instance (t : Twi) : (request : TwiRequest) → Decidable (Refused t request)
  | .write _ _ _ _ => inferInstanceAs (Decidable (_ ∨ _ ∨ _ ∨ _))
  | .read _ _ _ _ => inferInstanceAs (Decidable (_ ∨ _ ∨ _ ∨ _))

theorem twiCall_eq (t : Twi) (request : TwiRequest) (hlen : request.len < 256) :
    twiCall t request = if Refused t request then (t, false)
      else ({ t with queue := (twiFill t.queue request.record).1 },
        (twiFill t.queue request.record).2) := by
  cases request with
  | write id tag reg data =>
    have hn : (BitVec.ofNat 8 data.length).toNat = data.length := by
      simp only [TwiRequest.len] at hlen
      bv_omega
    have htake : data.take (BitVec.ofNat 8 data.length).toNat = data := by
      rw [hn, List.take_length]
    by_cases h : Refused t (.write id tag reg data)
    · rw [if_pos h]
      exact if_pos h
    · rw [if_neg h]
      refine (if_neg h).trans ?_
      rw [htake]
      rfl
  | read id tag reg len => rfl

/-- Where the main loop is in a call: before the checks, or before the fill of
the byte at `i`. -/
inductive TwiCallPc where
  | check (request : TwiRequest)
  | fill (request : TwiRequest) (i : ℕ)
deriving DecidableEq

/-- The driver, the call under way, the requests whose call has returned 1 and
how many of them `twi_try` has taken off. -/
@[ext] structure TwiQueue where
  twi : Twi
  pending : Option TwiCallPc
  accepted : List TwiRequest
  taken : ℕ

def twiQueuePower : TwiQueue := ⟨twiInit, none, [], 0⟩

def TwiQueue.setQueue (r : TwiQueue) (q : Buffer) : TwiQueue :=
  { r with twi := { r.twi with queue := q } }

/-- The next statement of the call. -/
def twiStatement (r : TwiQueue) : TwiQueue :=
  match r.pending with
  | none => r
  | some (.check request) =>
    if Refused r.twi request then { r with pending := none }
    else { r with pending := some (.fill request 0) }
  | some (.fill request i) =>
    match bufferByteFill r.twi.queue (request.record.getD i 0) with
    | (q, false) => { r.setQueue q with pending := none }
    | (q, true) =>
      if i + 1 < request.record.length then
        { r.setQueue q with pending := some (.fill request (i + 1)) }
      else { r.setQueue q with pending := none, accepted := r.accepted ++ [request] }

/-- A call the interrupt makes. -/
def twiAtOnce (r : TwiQueue) (request : TwiRequest) : TwiQueue :=
  { r with
    twi := (twiCall r.twi request).1
    accepted := r.accepted ++ if (twiCall r.twi request).2 then [request] else [] }

def clockReads : List TwiRequest :=
  [.read twiIdRtc Avr.bufferHour Avr.regHour 1,
    .read twiIdRtc Avr.bufferMinute Avr.regMinute 1,
    .read twiIdRtc Avr.bufferSecond Avr.regSecond 1]

def int2Queue (r : TwiQueue) : TwiQueue := clockReads.foldl twiAtOnce r

inductive TwiQueueEvent where
  | call (request : TwiRequest)
  | statement
  | int2
  | twiTry
  | vect (twsr received : Byte)
deriving DecidableEq

/-- The main loop calls `twi_try` and the two functions one after the other; the
length of a request is a byte. -/
def twiQueueStep (r : TwiQueue) : TwiQueueEvent → TwiQueue
  | .call request =>
    if r.pending = none ∧ request.len < 256 then { r with pending := some (.check request) } else r
  | .statement => twiStatement r
  | .int2 => int2Queue r
  | .twiTry =>
    if r.pending = none then
      { r with
        twi := (twiTry r.twi).1
        taken := r.taken + if Dequeues r.twi then 1 else 0 }
    else r
  | .vect twsr received => { r with twi := twiVect r.twi twsr received }

theorem int2Queue_twi (r : TwiQueue) : (int2Queue r).twi = Avr.int2Vect r.twi := by
  simp only [int2Queue, clockReads, List.foldl_cons, List.foldl_nil, twiAtOnce, twiCall,
    Avr.int2Vect, twiReadByte]

/-! ### A call without an interrupt -/

/-- The fills of a call still to come, all together. -/
def Returns (r r' : TwiQueue) (request : TwiRequest) (bytes : List Byte) : Prop :=
  r'.twi = { r.twi with queue := (twiFill r.twi.queue bytes).1 } ∧ r'.pending = none ∧
    r'.taken = r.taken ∧
    r'.accepted = r.accepted ++ if (twiFill r.twi.queue bytes).2 then [request] else []

theorem statements_idle {r : TwiQueue} (h : r.pending = none) (n : ℕ) :
    run twiQueueStep r (List.replicate n .statement) = r := by
  induction n with
  | zero => rfl
  | succ n ih =>
    have hstay : twiQueueStep r .statement = r := by
      change twiStatement r = r
      unfold twiStatement
      rw [h]
    rw [List.replicate_succ, run_cons, hstay, ih]

theorem fills_return {r : TwiQueue} {request : TwiRequest} {i : ℕ}
    (h : r.pending = some (.fill request i)) (hi : i < request.record.length) :
    Returns r (run twiQueueStep r (List.replicate (request.record.length - i) .statement))
      request (request.record.drop i) := by
  induction hn : request.record.length - i generalizing r i with
  | zero => omega
  | succ n ih =>
    have hbyte : request.record.getD i 0 = request.record[i] := by
      rw [List.getD_eq_getElem?_getD, List.getElem?_eq_getElem hi]
      rfl
    have hdrop : request.record.drop i = request.record[i] :: request.record.drop (i + 1) :=
      List.drop_eq_getElem_cons hi
    have hstep : twiQueueStep r .statement = twiStatement r := rfl
    rw [List.replicate_succ, run_cons, hstep, hdrop]
    unfold Returns twiStatement
    rw [h, twiFill]
    dsimp only
    rw [hbyte]
    rcases bufferByteFill r.twi.queue request.record[i] with ⟨q, _ | _⟩
    · dsimp only
      rw [statements_idle rfl]
      exact ⟨rfl, rfl, rfl, (List.append_nil _).symm⟩
    · dsimp only
      by_cases hlast : i + 1 < request.record.length
      · rw [if_pos hlast]
        exact ih rfl hlast (by omega)
      · have hend : request.record.drop (i + 1) = [] := List.drop_eq_nil_of_le (by omega)
        rw [if_neg hlast, hend, statements_idle rfl]
        exact ⟨rfl, rfl, rfl, rfl⟩

/-- Without an interrupt the statements are the call at once. -/
theorem call_uninterrupted {r : TwiQueue} (h : r.pending = none) {request : TwiRequest}
    (hlen : request.len < 256) :
    run twiQueueStep r (.call request :: .statement ::
      List.replicate request.record.length .statement) = twiAtOnce r request := by
  have hcall : twiQueueStep r (.call request) = { r with pending := some (.check request) } :=
    if_pos ⟨h, hlen⟩
  rw [run_cons, run_cons, hcall]
  unfold twiAtOnce
  rw [twiCall_eq r.twi request hlen]
  by_cases hno : Refused r.twi request
  · have hcheck : twiQueueStep { r with pending := some (.check request) } .statement =
        { r with pending := none } := if_pos hno
    rw [hcheck, statements_idle rfl, if_pos hno]
    obtain ⟨twi, pending, accepted, taken⟩ := r
    dsimp only at h ⊢
    rw [h, if_neg Bool.false_ne_true, List.append_nil]
  · have hcheck : twiQueueStep { r with pending := some (.check request) } .statement =
        { r with pending := some (.fill request 0) } := if_neg hno
    have hpos : 0 < request.record.length := List.length_pos_iff.mpr (record_ne_nil request)
    have hfills := fills_return (r := { r with pending := some (.fill request 0) }) rfl hpos
    rw [Nat.sub_zero, List.drop_zero] at hfills
    obtain ⟨htwi, hpending, htaken, haccepted⟩ := hfills
    rw [hcheck, if_neg hno]
    exact TwiQueue.ext htwi (hpending.trans h.symm) haccepted htaken

/-! ### What the queue holds -/

/-- The part of the record being written that is in the queue. -/
def part : Option TwiCallPc → List Byte
  | some (.fill request i) => request.record.take i
  | _ => []

/-- The requests whose call has returned 1 and that `twi_try` has yet to take. -/
def queued (r : TwiQueue) : List TwiRequest := r.accepted.drop r.taken

/-- The queue is their records, whole, and the part of the one being written. -/
def Intact (r : TwiQueue) : Prop :=
  r.taken ≤ r.accepted.length ∧
    r.twi.queue.contents = (queued r).flatMap TwiRequest.record ++ part r.pending

/-- A fill does not meet a full queue once its record has been begun, and does
not fill the queue to capacity behind a positive `start`. -/
def FillCareful (q : Buffer) : Option TwiCallPc → Prop
  | some (.fill _ i) =>
    (q.count < 255 → ¬ (0 < q.start.toNat ∧ q.count + 1 = 255)) ∧ (¬ q.count < 255 → i = 0)
  | _ => True

/-- The interrupt comes into the fills only when there is no room for a record
of its own, and does not fill the queue to capacity either. -/
def ReadsCareful (q : Buffer) : Option TwiCallPc → Prop
  | some (.fill _ (_ + 1)) => 255 < q.count + overhead
  | _ => 0 < q.start.toNat → q.count + 4 ≠ 255 ∧ q.count + 8 ≠ 255 ∧ q.count + 12 ≠ 255

instance (q : Buffer) : (pending : Option TwiCallPc) → Decidable (FillCareful q pending)
  | some (.fill _ _) => inferInstanceAs (Decidable (_ ∧ _))
  | some (.check _) => .isTrue trivial
  | none => .isTrue trivial

instance (q : Buffer) : (pending : Option TwiCallPc) → Decidable (ReadsCareful q pending)
  | some (.fill _ (_ + 1)) => inferInstanceAs (Decidable (_ < _))
  | some (.fill _ 0) => inferInstanceAs (Decidable (_ → _))
  | some (.check _) => inferInstanceAs (Decidable (_ → _))
  | none => inferInstanceAs (Decidable (_ → _))

/-- Besides, `twi_try` takes no write of 128 bytes off the queue. -/
def Careful (r : TwiQueue) : TwiQueueEvent → Prop
  | .statement => FillCareful r.twi.queue r.pending
  | .int2 => ReadsCareful r.twi.queue r.pending
  | .twiTry => Dequeues r.twi → ∀ request ∈ (queued r).head?, request.record.length < 132
  | _ => True

instance (r : TwiQueue) : (e : TwiQueueEvent) → Decidable (Careful r e)
  | .statement => inferInstanceAs (Decidable (FillCareful _ _))
  | .int2 => inferInstanceAs (Decidable (ReadsCareful _ _))
  | .twiTry => inferInstanceAs (Decidable (_ → _))
  | .call _ => .isTrue trivial
  | .vect _ _ => .isTrue trivial

/-- The invariant of a run. -/
structure TwiKept (r : TwiQueue) : Prop where
  valid : r.twi.queue.Valid
  intact : Intact r
  place : ∀ request i, r.pending = some (.fill request i) → i < request.record.length

/-! ### The interrupt -/

/-- What some calls at once add. -/
structure Adds (r r' : TwiQueue) (added : List TwiRequest) : Prop where
  valid : r'.twi.queue.Valid
  contents : r'.twi.queue.contents = r.twi.queue.contents ++ added.flatMap TwiRequest.record
  accepted : r'.accepted = r.accepted ++ added
  pending : r'.pending = r.pending
  taken : r'.taken = r.taken
  start : r'.twi.queue.start = r.twi.queue.start

theorem Adds.refl {r : TwiQueue} (h : r.twi.queue.Valid) : Adds r r [] :=
  ⟨h, by simp, by simp, rfl, rfl, rfl⟩

theorem Adds.trans {r₁ r₂ r₃ : TwiQueue} {added more : List TwiRequest} (h : Adds r₁ r₂ added)
    (h' : Adds r₂ r₃ more) : Adds r₁ r₃ (added ++ more) where
  valid := h'.valid
  contents := by rw [h'.contents, h.contents, List.flatMap_append, List.append_assoc]
  accepted := by rw [h'.accepted, h.accepted, List.append_assoc]
  pending := h'.pending.trans h.pending
  taken := h'.taken.trans h.taken
  start := h'.start.trans h.start

/-- A read that does not fill the queue exactly is refused or adds its record. -/
theorem read_adds {r : TwiQueue} (h : r.twi.queue.Valid) (id tag reg len : Byte)
    (hsafe : 0 < r.twi.queue.start.toNat → r.twi.queue.count + 4 ≠ 255) :
    Adds r (twiAtOnce r (.read id tag reg len)) [] ∨
      (r.twi.queue.count + 4 ≤ 255 ∧
        Adds r (twiAtOnce r (.read id tag reg len)) [.read id tag reg len]) := by
  rcases twiReadArray_cases h id tag reg len with hno | ⟨-, -, hroom, -, hyes⟩
  · have hsame : twiAtOnce r (.read id tag reg len) = r := by
      unfold twiAtOnce
      rw [hno]
      exact TwiQueue.ext rfl rfl (List.append_nil _) rfl
    rw [hsame]
    exact .inl (.refl h)
  · refine .inr ⟨hroom, ?_⟩
    unfold twiAtOnce
    rw [hyes]
    have hcontents := fillAll_contents h (TwiRequest.read id tag reg len).record hroom
      fun ⟨hs, _, hf⟩ => hsafe hs hf
    generalize hfill : fillAll r.twi.queue (TwiRequest.read id tag reg len).record = q at hcontents
    have hvalid : q.Valid := hfill ▸ fillAll_valid h _
    have hstart : q.start = r.twi.queue.start := hfill ▸ fillAll_start _ _
    refine ⟨hvalid, ?_, rfl, rfl, rfl, hstart⟩
    rw [List.flatMap_singleton]
    exact hcontents

theorem reads_add {r : TwiQueue} (h : r.twi.queue.Valid) (requests : List TwiRequest)
    (hread : ∀ request ∈ requests, ∃ id tag reg len, request = .read id tag reg len)
    (hsafe : ∀ k, k < requests.length → 0 < r.twi.queue.start.toNat →
      r.twi.queue.count + 4 * (k + 1) ≠ 255) :
    ∃ added, Adds r (requests.foldl twiAtOnce r) added ∧
      (255 < r.twi.queue.count + 4 → added = []) := by
  induction requests generalizing r with
  | nil => exact ⟨[], .refl h, fun _ => rfl⟩
  | cons request requests ih =>
    obtain ⟨id, tag, reg, len, rfl⟩ := hread request List.mem_cons_self
    have hrest : ∀ request ∈ requests, ∃ id tag reg len, request = .read id tag reg len :=
      fun request hmem => hread request (List.mem_cons_of_mem _ hmem)
    have hlen : (TwiRequest.read id tag reg len :: requests).length = requests.length + 1 := rfl
    rw [hlen] at hsafe
    rcases read_adds h id tag reg len (hsafe 0 (Nat.succ_pos _)) with hno | ⟨hroom, hyes⟩
    · have hcount : (twiAtOnce r (.read id tag reg len)).twi.queue.count = r.twi.queue.count := by
        rw [← contents_length, hno.contents, List.flatMap_nil, List.append_nil, contents_length]
      obtain ⟨added, hadds, hfull⟩ := ih hno.valid hrest fun k hk hs => by
        rw [hcount]
        rw [hno.start] at hs
        exact hsafe k (by omega) hs
      refine ⟨added, hno.trans hadds, fun hf => hfull ?_⟩
      rw [hcount]
      exact hf
    · have hcount : (twiAtOnce r (.read id tag reg len)).twi.queue.count =
          r.twi.queue.count + 4 := by
        rw [← contents_length, hyes.contents, List.length_append, contents_length]
        rfl
      obtain ⟨added, hadds, -⟩ := ih hyes.valid hrest fun k hk hs => by
        rw [hcount]
        rw [hyes.start] at hs
        have := hsafe (k + 1) (by omega) hs
        omega
      exact ⟨_, hyes.trans hadds, fun hf => absurd hroom (by omega)⟩

/-- The records the interrupt adds stand between whole ones. -/
theorem Adds.kept {r r' : TwiQueue} {added : List TwiRequest} (h : Adds r r' added)
    (hkept : TwiKept r) (hplace : added = [] ∨ part r.pending = []) : TwiKept r' := by
  obtain ⟨hle, hcontents⟩ := hkept.intact
  refine ⟨h.valid, ⟨?_, ?_⟩, by rw [h.pending]; exact hkept.place⟩
  · rw [h.taken, h.accepted, List.length_append]
    omega
  · have hqueued : queued r' = queued r ++ added := by
      unfold queued
      rw [h.taken, h.accepted, List.drop_append_of_le_length hle]
    rw [h.contents, hqueued, h.pending, hcontents, List.flatMap_append]
    rcases hplace with rfl | hpart
    · simp
    · rw [hpart, List.append_nil, List.append_nil]

theorem int2_kept {r : TwiQueue} (h : TwiKept r) (hc : Careful r .int2) :
    TwiKept (int2Queue r) := by
  have hread : ∀ request ∈ clockReads, ∃ id tag reg len, request = .read id tag reg len := by
    intro request hmem
    simp only [clockReads, List.mem_cons, List.not_mem_nil, or_false] at hmem
    rcases hmem with rfl | rfl | rfl <;> exact ⟨_, _, _, _, rfl⟩
  have hthree : clockReads.length = 3 := rfl
  -- where the record being written has not been begun
  have hbefore : part r.pending = [] → (0 < r.twi.queue.start.toNat →
      r.twi.queue.count + 4 ≠ 255 ∧ r.twi.queue.count + 8 ≠ 255 ∧
        r.twi.queue.count + 12 ≠ 255) → TwiKept (int2Queue r) := by
    intro hpart hsafe
    obtain ⟨added, hadds, -⟩ := reads_add h.valid clockReads hread fun k hk hs => by
      obtain ⟨h4, h8, h12⟩ := hsafe hs
      rw [hthree] at hk
      omega
    exact hadds.kept h (.inr hpart)
  unfold Careful ReadsCareful at hc
  cases hp : r.pending with
  | none =>
    rw [hp] at hc
    exact hbefore (by rw [hp]; rfl) hc
  | some pc =>
    rw [hp] at hc
    cases pc with
    | check request => exact hbefore (by rw [hp]; rfl) hc
    | fill request i =>
      cases i with
      | zero => exact hbefore (by rw [hp]; rfl) hc
      | succ i =>
        obtain ⟨added, hadds, hfull⟩ := reads_add h.valid clockReads hread fun k _ _ => by
          have hover : 255 < r.twi.queue.count + 4 := hc
          omega
        exact hadds.kept h (.inl (hfull hc))

/-! ### The statements -/

theorem statement_kept {r : TwiQueue} (h : TwiKept r) (hc : Careful r .statement) :
    TwiKept (twiStatement r) := by
  obtain ⟨hle, hcontents⟩ := h.intact
  unfold Careful FillCareful at hc
  unfold twiStatement
  cases hp : r.pending with
  | none => exact h
  | some pc =>
    rw [hp] at hc hcontents
    cases pc with
    | check request =>
      dsimp only
      split_ifs
      · exact ⟨h.valid, ⟨hle, hcontents⟩, fun _ _ hn => absurd hn (by simp)⟩
      · refine ⟨h.valid, ⟨hle, hcontents⟩, fun request' i' hn => ?_⟩
        have hsame := TwiCallPc.fill.inj (Option.some.inj hn)
        rw [← hsame.1, ← hsame.2]
        exact List.length_pos_iff.mpr (record_ne_nil request)
    | fill request i =>
      have hi := h.place request i hp
      have hbyte : request.record.getD i 0 = request.record[i] := by
        rw [List.getD_eq_getElem?_getD, List.getElem?_eq_getElem hi]
        rfl
      have htake : request.record.take (i + 1) = request.record.take i ++ [request.record[i]] :=
        List.take_succ_eq_append_getElem hi
      have hs : (255 : Byte).toNat = 255 := rfl
      dsimp only at hc ⊢
      rw [hbyte]
      by_cases room : r.twi.queue.count < 255
      · have hdone : (ringByteFill r.twi.queue request.record[i]).2 = true := by
          rw [byteFill_eq h.valid room]
        have hfill : bufferByteFill r.twi.queue request.record[i] =
            ((ringByteFill r.twi.queue request.record[i]).1, true) := by
          rw [← hdone]
          rfl
        have hafter := byteFill_contents h.valid (by rw [hs]; exact room)
          (by rw [hs]; exact hc.1 room) request.record[i]
        have hvalid := byteFill_valid h.valid request.record[i]
        rw [hcontents, List.append_assoc] at hafter
        change _ = _ ++ (request.record.take i ++ [request.record[i]]) at hafter
        rw [← htake] at hafter
        rw [hfill]
        dsimp only
        split_ifs with hlast
        · refine ⟨hvalid, ⟨hle, hafter⟩, fun request' i' hn => ?_⟩
          have hsame := TwiCallPc.fill.inj (Option.some.inj hn)
          rw [← hsame.1, ← hsame.2]
          exact hlast
        · rw [List.take_of_length_le (by omega)] at hafter
          refine ⟨hvalid, ⟨?_, ?_⟩, fun _ _ hn => absurd hn (by simp)⟩
          · change r.taken ≤ (r.accepted ++ [request]).length
            rw [List.length_append]
            omega
          · have hqueued : queued { r.setQueue (ringByteFill r.twi.queue request.record[i]).1 with
                pending := none, accepted := r.accepted ++ [request] } = queued r ++ [request] :=
              List.drop_append_of_le_length hle
            rw [hqueued, List.flatMap_append, List.flatMap_singleton]
            exact hafter.trans (List.append_nil _).symm
      · have hzero := hc.2 room
        subst hzero
        have hfill : bufferByteFill r.twi.queue request.record[0] = (r.twi.queue, false) :=
          byteFill_full h.valid room _
        rw [hfill]
        exact ⟨h.valid, ⟨hle, hcontents⟩, fun _ _ hn => absurd hn (by simp)⟩

/-! ### `twi_try` -/

theorem actionOf_headerRead : ∀ len : Byte, actionOf (headerRead len) = .read := by
  decide +kernel

/-- The record at the front is taken off, and nothing else. -/
theorem actionSet_queue {t : Twi} (h : t.queue.Valid) {request : TwiRequest}
    (hlong : request.record.length < 132) {rest : List Byte}
    (hc : t.queue.contents = request.record ++ rest) :
    (actionSet t).queue.Valid ∧ (actionSet t).queue.contents = rest := by
  cases request with
  | write id tag reg data =>
    have hlen : data.length < 128 := by
      simp only [TwiRequest.record, List.length_append, List.length_cons, List.length_nil] at hlong
      omega
    have hn : (BitVec.ofNat 8 data.length).toNat = data.length := by bv_omega
    obtain ⟨ha, hl⟩ := header_write (BitVec.ofNat 8 data.length) (by omega)
    obtain ⟨q₁, e₁, v₁, c₁⟩ := actionHeader_eq h hc
    obtain ⟨q₂, e₂, v₂, c₂⟩ := actionData_eq v₁ t.mData 0 data c₁
    unfold actionSet
    simp only [e₁, ha, hl, hn, e₂, ↓reduceIte]
    exact ⟨v₂, c₂⟩
  | read id tag reg len =>
    obtain ⟨q₁, e₁, v₁, c₁⟩ := actionHeader_eq h hc
    have ha := actionOf_headerRead len
    unfold actionSet
    simp only [e₁, ha]
    rw [if_neg (by simp)]
    exact ⟨v₁, c₁⟩

theorem twiTry_queue {t : Twi} (h : ¬ Dequeues t) : (twiTry t).1.queue = t.queue := by
  unfold twiTry
  split_ifs with hmode haction hsize
  · rfl
  · rfl
  · exact absurd ⟨not_not.mp hmode, not_not.mp haction, hsize⟩ h
  · rfl

theorem twiTry_kept {r : TwiQueue} (h : TwiKept r) (hp : r.pending = none)
    (hc : Careful r .twiTry) : TwiKept { r with
      twi := (twiTry r.twi).1
      taken := r.taken + if Dequeues r.twi then 1 else 0 } := by
  obtain ⟨hle, hcontents⟩ := h.intact
  by_cases hd : Dequeues r.twi
  · obtain ⟨hmode, hidle, hsize⟩ := hd
    have hd : Dequeues r.twi := ⟨hmode, hidle, hsize⟩
    rw [hp] at hcontents
    cases hq : queued r with
    | nil =>
      rw [hq] at hcontents
      have hcount : r.twi.queue.count = 0 := by rw [← contents_length, hcontents]; rfl
      have hpos : 0 < r.twi.queue.count := hsize
      omega
    | cons request rest =>
      have hhead : request.record.length < 132 := hc hd request (by rw [hq]; rfl)
      have hfront : r.twi.queue.contents = request.record ++ rest.flatMap TwiRequest.record := by
        rw [hcontents, hq, List.flatMap_cons]
        exact List.append_nil _
      obtain ⟨hv, hrest⟩ := actionSet_queue h.valid hhead hfront
      have htry : (twiTry r.twi).1.queue = (actionSet r.twi).queue := by
        unfold twiTry
        rw [if_neg (not_not.mpr hmode), if_neg (not_not.mpr hidle), if_pos hsize]
        rfl
      have hdrop : r.accepted.drop (r.taken + 1) = rest := by
        have htail := congrArg List.tail hq
        rw [queued, List.tail_drop] at htail
        exact htail
      have hlt : r.taken < r.accepted.length := by
        by_contra hge
        rw [queued, List.drop_eq_nil_of_le (not_lt.mp hge)] at hq
        exact absurd hq (by simp)
      rw [if_pos hd]
      refine ⟨?_, ⟨hlt, ?_⟩, h.place⟩
      · change (twiTry r.twi).1.queue.Valid
        rw [htry]
        exact hv
      · change (twiTry r.twi).1.queue.contents =
          (r.accepted.drop (r.taken + 1)).flatMap TwiRequest.record ++ part r.pending
        rw [htry, hrest, hdrop, hp]
        exact (List.append_nil _).symm
  · rw [if_neg hd, Nat.add_zero]
    have hqueue := twiTry_queue hd
    refine ⟨?_, ⟨hle, ?_⟩, h.place⟩
    · change (twiTry r.twi).1.queue.Valid
      rw [hqueue]
      exact h.valid
    · change (twiTry r.twi).1.queue.contents = _
      rw [hqueue]
      exact hcontents

/-! ### All runs -/

theorem twiQueueStep_kept (r : TwiQueue) (e : TwiQueueEvent) (h : TwiKept r)
    (hc : Careful r e) : TwiKept (twiQueueStep r e) := by
  cases e with
  | call request =>
    unfold twiQueueStep
    dsimp only
    split_ifs with hfree
    · obtain ⟨hle, hcontents⟩ := h.intact
      rw [hfree.1] at hcontents
      exact ⟨h.valid, ⟨hle, hcontents⟩, fun _ _ hn => absurd hn (by simp)⟩
    · exact h
  | statement => exact statement_kept h hc
  | int2 => exact int2_kept h hc
  | twiTry =>
    by_cases hfree : r.pending = none
    · have hstep : twiQueueStep r .twiTry = { r with
          twi := (twiTry r.twi).1
          taken := r.taken + if Dequeues r.twi then 1 else 0 } := if_pos hfree
      rw [hstep]
      exact twiTry_kept h hfree hc
    · have hstep : twiQueueStep r .twiTry = r := if_neg hfree
      rw [hstep]
      exact h
  | vect twsr received =>
    obtain ⟨hq, -⟩ := twiVect_frame r.twi twsr received
    have hqueue : (twiQueueStep r (.vect twsr received)).twi.queue = r.twi.queue := hq
    refine ⟨by rw [hqueue]; exact h.valid, ⟨h.intact.1, ?_⟩, h.place⟩
    rw [hqueue]
    exact h.intact.2

theorem twiQueuePower_kept : TwiKept twiQueuePower :=
  ⟨ringInit_valid (by decide), ⟨Nat.zero_le _, ringInit_contents 255⟩,
    fun _ _ h => absurd h (by simp [twiQueuePower])⟩

/-- In a careful run the queue is at all times the records of the requests whose
call has returned 1, each whole, and the part of the one being written. -/
theorem queue_of_whole_records (es : List TwiQueueEvent)
    (h : Along twiQueueStep Careful twiQueuePower es) :
    Throughout twiQueueStep Intact twiQueuePower es := by
  rw [throughout_iff_start]
  intro ds hd
  exact (run_invariant twiQueueStep_kept twiQueuePower_kept (h.take hd)).intact

/-- The clock interrupt comes between the checks and the first fill. -/
theorem queue_of_clock_set : Throughout twiQueueStep Intact twiQueuePower
    ([TwiQueueEvent.call (.write 0 0 0 [5, 6, 7]), .statement, .int2] ++
      List.replicate 7 TwiQueueEvent.statement ++ [TwiQueueEvent.twiTry, .vect 0 0]) :=
  queue_of_whole_records _ (by decide +kernel)

/-- It comes behind the header byte: the rest of the record stands behind the
three of the interrupt, and the call returns 1. -/
theorem clock_reads_split_record :
    let r := run twiQueueStep twiQueuePower
      ([TwiQueueEvent.call (.write 0 0 0 [5, 6, 7]), .statement, .statement, .int2] ++
        List.replicate 6 TwiQueueEvent.statement)
    r.pending = none ∧ (TwiRequest.write 0 0 0 [5, 6, 7]) ∈ r.accepted ∧
      r.twi.queue.contents = [headerWrite 3] ++ clockReads.flatMap TwiRequest.record ++
        [0, 0, 0, 5, 6, 7] ∧
      ¬ Intact r := by
  intro r
  have hqueue : r.twi.queue.contents = [headerWrite 3] ++ clockReads.flatMap TwiRequest.record ++
      [0, 0, 0, 5, 6, 7] := by decide +kernel
  refine ⟨by decide +kernel, by decide +kernel, hqueue, fun hintact => ?_⟩
  have hwhole := hintact.2
  rw [hqueue] at hwhole
  exact absurd hwhole (by decide +kernel)

end LedServer.AvrTwi
