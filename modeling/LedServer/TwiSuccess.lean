import LedServer.TwiTransaction

set_option autoImplicit false

/-!
# What `TWI_SUCCESS` means

`check_status_register` asks for the bits of a code and not for the code.
-/
namespace LedServer.AvrTwi
open AvrRing Machine

def TwiReport.status : TwiReport → TwiStatus
  | .write _ _ status => status
  | .read _ _ status _ _ => status

/-- What the interrupts of `es` find. -/
def found (es : List TwiEvent) : List (Byte × Byte) :=
  es.filterMap fun
    | .vect twsr received => some (twsr, received)
    | _ => none

namespace TwiRequest

/-- `++m_index < m_max_index` is asked behind a value: the 128 bytes that the
header has no room for still have one value phase. -/
def phases (request : TwiRequest) : ℕ := request.opening.length + max 1 request.len

/-- Interrupt `k` is about a start, an address or a written byte. -/
def Acknowledged (request : TwiRequest) (k : ℕ) : Prop := request.phase k ≠ .readValue

instance (request : TwiRequest) (k : ℕ) : Decidable (request.Acknowledged k) :=
  inferInstanceAs (Decidable (_ ≠ _))

/-- Every start, address and written byte was met with exactly its code. -/
def Acked (request : TwiRequest) (seen : List (Byte × Byte)) : Prop :=
  ∀ k < request.phases, request.Acknowledged k →
    ∃ p, seen[k]? = some p ∧ p.1 &&& 0xF8 = expectedCode (request.phase k)

/-- `TW_MT_ARB_LOST` and `TW_MR_ARB_LOST`. -/
def twArbLost : Byte := 0x38

/-- Nothing seen is a lost arbitration, in whatever phase. -/
def Won (seen : List (Byte × Byte)) : Prop := ∀ p ∈ seen, p.1 &&& 0xF8 ≠ twArbLost

/-- One of the codes lacks a bit of the code its phase is for. -/
def Lacks (request : TwiRequest) (codes : List (Byte × Byte)) : Prop :=
  ∃ p ∈ codes.zipIdx, ∃ i < 8,
    (expectedCode (request.phase p.2)).getLsbD i = true ∧ p.1.1.getLsbD i = false

instance (request : TwiRequest) (codes : List (Byte × Byte)) : Decidable (request.Lacks codes) :=
  inferInstanceAs (Decidable (∃ _ ∈ _, _))

/-- None of the codes is another one than its phase is for. -/
def Exact (request : TwiRequest) (codes : List (Byte × Byte)) : Prop :=
  ∀ p ∈ codes.zipIdx, request.Acknowledged p.2 →
    p.1.1 &&& 0xF8 = expectedCode (request.phase p.2)

instance (request : TwiRequest) (codes : List (Byte × Byte)) :
    Decidable (request.Exact codes) := inferInstanceAs (Decidable (∀ _ ∈ _, _))

end TwiRequest

/-! ### The test of bits -/

theorem expectedCode_mask (mode : TwiMode) : expectedCode mode &&& 0xF8 = expectedCode mode := by
  cases mode <;> rfl

theorem checkStatusRegister_iff {twsr mask : Byte} (hmask : mask &&& 0xF8 = mask) :
    checkStatusRegister twsr mask = true ↔
      ∀ i < 8, mask.getLsbD i = true → twsr.getLsbD i = true := by
  have hbits : (twsr &&& 0xF8) &&& mask = twsr &&& mask := by
    rw [BitVec.and_assoc, BitVec.and_comm 0xF8, hmask]
  unfold checkStatusRegister
  rw [decide_eq_true_iff, hbits]
  constructor
  · intro h i _ hi
    rw [← h, BitVec.getLsbD_and, Bool.and_eq_true] at hi
    exact hi.1
  · intro h
    refine BitVec.eq_of_getLsbD_eq fun i hi => ?_
    rw [BitVec.getLsbD_and]
    cases hm : mask.getLsbD i with
    | false => rw [Bool.and_false]
    | true => rw [h i hi hm, Bool.and_self]

namespace TwiRequest

theorem passed_iff (request : TwiRequest) (seen : List (Byte × Byte)) :
    request.Passed seen ↔ ¬ request.Lacks seen := by
  constructor
  · rintro h ⟨p, hp, i, hi, hcode, hbit⟩
    have hset := (checkStatusRegister_iff (expectedCode_mask _)).mp (h p hp) i hi hcode
    rw [hbit] at hset
    cases hset
  · intro h p hp
    refine (checkStatusRegister_iff (expectedCode_mask _)).mpr fun i hi hcode => ?_
    by_contra hbit
    exact h ⟨p, hp, i, hi, hcode, Bool.eq_false_iff.mpr hbit⟩

theorem Lacks.of_prefix {request : TwiRequest} {seen codes : List (Byte × Byte)}
    (h : request.Lacks seen) (hseen : seen <+: codes) : request.Lacks codes := by
  obtain ⟨rest, rfl⟩ := hseen
  obtain ⟨p, hp, i, hi, hbits⟩ := h
  refine ⟨p, ?_, i, hi, hbits⟩
  rw [List.zipIdx_append, List.mem_append]
  exact .inl hp

theorem phaseError_ne {mode : TwiMode} (h : mode ≠ .idle) : phaseError mode ≠ .success := by
  cases mode with
  | idle => exact absurd rfl h
  | _ => exact TwiStatus.noConfusion

/-- It is a success if the transaction began as one and no check failed. -/
theorem recorded_success (request : TwiRequest) (status : TwiStatus)
    (seen : List (Byte × Byte)) :
    request.recorded status seen = .success ↔ status = .success ∧ ¬ request.Lacks seen := by
  rw [← passed_iff, recorded]
  by_cases hp : request.Passed seen
  · rw [if_pos hp]
    exact ⟨fun h => ⟨h, hp⟩, And.left⟩
  · rw [if_neg hp]
    exact ⟨fun h => absurd h (phaseError_ne (request.phase_ne _)), fun h => absurd h.2 hp⟩

theorem report_success (request : TwiRequest) (status : TwiStatus) (data : List Byte)
    (seen : List (Byte × Byte)) :
    (request.report status data seen).status = .success ↔
      status = .success ∧ request.Passed seen := by
  rw [passed_iff, ← recorded_success]
  cases request <;> rfl

theorem acked_iff {request : TwiRequest} {seen : List (Byte × Byte)}
    (h : seen.length = request.phases) : request.Acked seen ↔ request.Exact seen := by
  constructor
  · rintro hacked ⟨p, k⟩ hp hk
    have hget := List.mem_zipIdx_iff_getElem?.mp hp
    have hbound : k < request.phases := by
      rw [← h]
      exact (List.getElem?_eq_some_iff.mp hget).1
    obtain ⟨q, hq, hcode⟩ := hacked k hbound hk
    rw [hget, Option.some.injEq] at hq
    rw [hq]
    exact hcode
  · intro hexact k hk hack
    rw [← h] at hk
    refine ⟨seen[k], List.getElem?_eq_getElem hk, ?_⟩
    exact hexact (seen[k], k) (List.mem_zipIdx_iff_getElem?.mpr (List.getElem?_eq_getElem hk)) hack

/-- A lost arbitration while bytes are read lacks a bit of `TW_MR_DATA_ACK`. -/
theorem won_of_exact {request : TwiRequest} {seen : List (Byte × Byte)}
    (h : request.Exact seen) (hlacks : ¬ request.Lacks seen) : Won seen := by
  intro p hp hlost
  obtain ⟨k, hk⟩ := List.mem_iff_getElem?.mp hp
  have hin : (p, k) ∈ seen.zipIdx := List.mem_zipIdx_iff_getElem?.mpr hk
  by_cases hack : request.Acknowledged k
  · have hcode : expectedCode (request.phase k) = twArbLost := (h _ hin hack).symm.trans hlost
    cases hm : request.phase k <;> rw [hm] at hcode <;> exact absurd hcode (by decide)
  · have hmode : request.phase k = .readValue := not_not.mp hack
    refine hlacks ⟨(p, k), hin, 6, by decide, ?_, ?_⟩
    · rw [hmode]
      rfl
    · have hbit : (p.1 &&& 0xF8).getLsbD 6 = false := by
        rw [hlost]
        rfl
      simpa using hbit

end TwiRequest

/-! ### A transaction of any length -/

/-- The phase of a transaction that has not ended. -/
structure AtPhase (s : Twi) (r : TwiLog) : Prop where
  same : SameRequest s r.twi
  mode : r.twi.mode = (loaded s).phase r.seen.length
  more : r.seen.length < (loaded s).phases
  passed : (loaded s).Passed r.seen
  index : r.twi.mIndex.toNat = r.seen.length - (loaded s).opening.length
  status : r.twi.status = s.status
  reports : r.reports = []

/-- What has been seen when it has ended. -/
structure Finished (s : Twi) (seen : List (Byte × Byte)) : Prop where
  le : seen.length ≤ (loaded s).phases
  whole : (loaded s).Passed seen → seen.length = (loaded s).phases

/-- Between the stop and the callback. -/
structure Stopped (s : Twi) (r : TwiLog) : Prop where
  finished : Finished s r.seen
  mode : r.twi.mode = .idle
  action : r.twi.mAction = s.mAction
  status : r.twi.status = (loaded s).recorded s.status r.seen
  reports : r.reports = []

/-- The callback has been called. -/
structure Called (s : Twi) (r : TwiLog) : Prop where
  finished : Finished s r.seen
  mode : r.twi.mode = .idle
  action : r.twi.mAction = .idle
  reports : r.reports.map TwiReport.status = [(loaded s).recorded s.status r.seen]

theorem AtPhase.busy {s : Twi} {r : TwiLog} (h : AtPhase s r) : r.twi.mode ≠ .idle := by
  rw [h.mode]
  exact TwiRequest.phase_ne _ _

theorem AtPhase.step_vect {s : Twi} {r : TwiLog} (h : AtPhase s r) (twsr received : Byte) :
    r.step (.vect twsr received) =
      { r with
        twi := twiVect r.twi twsr received
        bus := r.bus ++ [busEvent (twiVect r.twi twsr received)]
        accesses := r.accesses ++ dataAccess r.twi twsr
        seen := r.seen ++ [(twsr, received)] } := by
  rw [TwiLog.step, if_neg h.busy]

theorem AtPhase.fail {s : Twi} {r : TwiLog} (h : AtPhase s r) {twsr : Byte}
    (hc : checkStatusRegister twsr (expectedCode r.twi.mode) = false) (received : Byte) :
    Stopped s (r.step (.vect twsr received)) := by
  have hfailed : ¬ (loaded s).Passed (r.seen ++ [(twsr, received)]) := by
    rw [TwiRequest.passed_append, ← h.mode, hc]
    rintro ⟨-, hfalse⟩
    cases hfalse
  rw [h.step_vect, twiVect_failed h.busy hc]
  refine ⟨⟨?_, fun hp => absurd hp hfailed⟩, rfl, h.same.action, ?_, h.reports⟩
  · rw [List.length_append, List.length_singleton]
    exact h.more
  · rw [TwiRequest.recorded, if_neg hfailed, List.length_append, List.length_singleton,
      Nat.add_sub_cancel, ← h.mode]

/-- A value phase of either kind. -/
theorem AtPhase.valueStep {s : Twi} {r : TwiLog} (hs : Fetched s) (h : AtPhase s r)
    (hk : (loaded s).opening.length ≤ r.seen.length) (received : Byte) :
    ∃ event data, ValueStep r.twi (vectGo r.twi received) event data := by
  have hlen := hs.len
  have hle := hs.le
  have hmore := h.more
  have hindex := h.index
  unfold TwiRequest.phases at hmore
  have hi : r.twi.mIndex.toNat < 127 := by omega
  have hmode : r.twi.mode = (loaded s).valueMode :=
    h.mode.trans (List.getD_eq_default _ _ hk)
  by_cases hw : s.mAction = .write
  · rw [Taken.opening_write hw] at hmode
    exact ⟨_, _, vectGo_writeValue hmode hi received⟩
  · rw [Taken.opening_read hw] at hmode
    exact ⟨_, _, vectGo_readValue hmode hi received⟩

theorem AtPhase.pass {s : Twi} {r : TwiLog} (hs : Fetched s) (h : AtPhase s r) {twsr : Byte}
    (hc : checkStatusRegister twsr (expectedCode r.twi.mode) = true) (received : Byte) :
    AtPhase s (r.step (.vect twsr received)) ∨ Stopped s (r.step (.vect twsr received)) := by
  have hlen := hs.len
  have hmore := h.more
  have hindex := h.index
  have hmax := h.same.max
  have hsame := h.same.vect twsr received
  have hpassed : (loaded s).Passed (r.seen ++ [(twsr, received)]) := by
    rw [TwiRequest.passed_append, ← h.mode]
    exact ⟨h.passed, hc⟩
  have hcount : (r.seen ++ [(twsr, received)]).length = r.seen.length + 1 := by
    rw [List.length_append, List.length_singleton]
  rw [h.step_vect]
  rw [twiVect_passed hc] at hsame ⊢
  unfold TwiRequest.phases at hmore
  by_cases hk : r.seen.length < (loaded s).opening.length
  · left
    obtain ⟨hafter, hwrite, hread⟩ := TwiRequest.phase_opening hk
    rw [← h.mode] at hafter hwrite hread
    obtain ⟨hnext, -, hsameIndex, hstatus, -, -⟩ := vectGo_opening h.busy hwrite hread received
    refine ⟨hsame, ?_, ?_, hpassed, ?_, hstatus.trans h.status, h.reports⟩
    · rw [hcount]
      exact hnext.trans hafter
    · rw [hcount]
      unfold TwiRequest.phases
      omega
    · change (vectGo r.twi received).mIndex.toNat = _
      rw [hcount, hsameIndex, hindex]
      omega
  · have hvalues : (loaded s).opening.length ≤ r.seen.length := Nat.le_of_not_lt hk
    obtain ⟨event, data, hstep⟩ := h.valueStep hs hvalues received
    have hstepIndex := hstep.index
    by_cases hlast : r.twi.mIndex.toNat + 1 < r.twi.mMaxIndex.toNat
    · left
      refine ⟨hsame, ?_, ?_, hpassed, ?_, hstep.status.trans h.status, h.reports⟩
      · rw [hcount, TwiRequest.phase, List.getD_eq_default _ _ (by omega)]
        refine (hstep.more hlast).1.trans (h.mode.trans ?_)
        exact List.getD_eq_default _ _ hvalues
      · rw [hcount]
        unfold TwiRequest.phases
        rw [hmax] at hlast
        omega
      · rw [hcount]
        exact hstepIndex.trans (by omega)
    · right
      have hend : r.seen.length + 1 = (loaded s).phases := by
        unfold TwiRequest.phases
        rw [hmax] at hlast
        omega
      refine ⟨⟨?_, fun _ => ?_⟩, (hstep.last hlast).1, hsame.action, ?_, h.reports⟩
      · rw [hcount, hend]
      · rw [hcount, hend]
      · rw [TwiRequest.recorded, if_pos hpassed]
        exact hstep.status.trans h.status

/-- The transaction is under way, over, or reported. -/
inductive Standing (s : Twi) (r : TwiLog) : Prop
  | busy (h : AtPhase s r)
  | stopped (h : Stopped s r)
  | called (h : Called s r)

theorem standing_step {s : Twi} (hs : Fetched s) (r : TwiLog) (e : TwiEvent)
    (h : Standing s r) (hc : Current r e) : Standing s (r.step e) := by
  cases e with
  | call request =>
    rw [TwiLog.step, twiCall_frame]
    cases h with
    | busy h =>
      exact .busy ⟨h.same.queue _, h.mode, h.more, h.passed, h.index, h.status, h.reports⟩
    | stopped h => exact .stopped ⟨h.finished, h.mode, h.action, h.status, h.reports⟩
    | called h => exact .called ⟨h.finished, h.mode, h.action, h.reports⟩
  | twiTry =>
    cases h with
    | busy h =>
      have htry : twiTry r.twi = (r.twi, none) := by rw [twiTry, if_pos h.busy]
      rw [TwiLog.step, htry]
      exact .busy ⟨h.same, h.mode, h.more, h.passed, h.index, h.status, by rw [h.reports]; rfl⟩
    | stopped h =>
      have haction : r.twi.mAction ≠ .idle := by
        rw [h.action]
        exact hs.action
      have htry : twiTry r.twi = (actionReset r.twi, some (twiReport r.twi)) := by
        rw [twiTry, if_neg (not_not.mpr h.mode), if_pos haction]
      have hreport : (twiReport r.twi).status = r.twi.status := by
        unfold twiReport
        split_ifs <;> rfl
      rw [TwiLog.step, htry]
      refine .called ⟨h.finished, h.mode, rfl, ?_⟩
      rw [h.reports, ← h.status, ← hreport]
      rfl
    | called h =>
      have hsize : ¬ (bufferSize r.twi.queue).toNat > 0 := fun hsize =>
        hc rfl ⟨h.mode, h.action, hsize⟩
      have htry : twiTry r.twi = (r.twi, none) := by
        rw [twiTry, if_neg (not_not.mpr h.mode), if_neg (not_not.mpr h.action), if_neg hsize]
      rw [TwiLog.step, htry]
      refine .called ⟨h.finished, h.mode, h.action, ?_⟩
      rw [← h.reports]
      exact congrArg _ (List.append_nil _)
  | vect twsr received =>
    cases h with
    | busy h =>
      cases hcheck : checkStatusRegister twsr (expectedCode r.twi.mode) with
      | false => exact .stopped (h.fail hcheck received)
      | true => exact (h.pass hs hcheck received).elim .busy .stopped
    | stopped h =>
      rw [TwiLog.step, if_pos h.mode]
      exact .stopped h
    | called h =>
      rw [TwiLog.step, if_pos h.mode]
      exact .called h

theorem mode_main {r : TwiLog} {e : TwiEvent} (hc : Current r e)
    (hmode : r.twi.mode = .idle) : (r.step e).twi.mode = .idle ∧ (r.step e).seen = r.seen := by
  cases e with
  | call request =>
    rw [TwiLog.step, twiCall_frame]
    exact ⟨hmode, rfl⟩
  | twiTry =>
    refine ⟨?_, rfl⟩
    have hnone := hc rfl
    rw [TwiLog.step]
    unfold twiTry
    split_ifs with hbusy haction hsize
    · exact hmode
    · exact hmode
    · exact absurd ⟨hmode, not_not.mp haction, hsize⟩ hnone
    · exact hmode
  | vect twsr received =>
    rw [TwiLog.step, if_pos hmode]
    exact ⟨hmode, rfl⟩

theorem seen_idle {r : TwiLog} {es : List TwiEvent} (hc : Along TwiLog.step Current r es)
    (hmode : r.twi.mode = .idle) : (run TwiLog.step r es).seen = r.seen := by
  induction es generalizing r with
  | nil => rfl
  | cons e es ih =>
    obtain ⟨hidle, hseen⟩ := mode_main hc.1 hmode
    exact (ih hc.2 hidle).trans hseen

/-- The codes a transaction has seen are the first of those there were. -/
theorem seen_found {r : TwiLog} {es : List TwiEvent} (hc : Along TwiLog.step Current r es) :
    (run TwiLog.step r es).seen <+: r.seen ++ found es := by
  induction es generalizing r with
  | nil => exact List.prefix_append _ _
  | cons e es ih =>
    by_cases hmode : r.twi.mode = .idle
    · rw [seen_idle hc hmode]
      exact List.prefix_append _ _
    · have hrest := ih hc.2
      rw [run_cons]
      cases e with
      | call request => exact hrest
      | twiTry => exact hrest
      | vect twsr received =>
        rw [TwiLog.step, if_neg hmode] at hrest ⊢
        rw [List.append_assoc] at hrest
        exact hrest

/-- Without an action there is no callback. -/
theorem no_action_step (r : TwiLog) (e : TwiEvent)
    (h : r.twi.mAction = .idle ∧ r.reports = []) (hc : Current r e) :
    (r.step e).twi.mAction = .idle ∧ (r.step e).reports = [] := by
  obtain ⟨haction, hreports⟩ := h
  cases e with
  | call request =>
    rw [TwiLog.step, twiCall_frame]
    exact ⟨haction, hreports⟩
  | twiTry =>
    have hnone := hc rfl
    have htry : twiTry r.twi = (r.twi, none) := by
      unfold twiTry
      split_ifs with hbusy hreport hsize
      · rfl
      · exact absurd haction hreport
      · exact absurd ⟨not_not.mp hbusy, haction, hsize⟩ hnone
      · rfl
    rw [TwiLog.step, htry, hreports]
    exact ⟨haction, rfl⟩
  | vect twsr received =>
    rw [TwiLog.step]
    split_ifs
    · exact ⟨haction, hreports⟩
    · exact ⟨((SameRequest.mk rfl rfl rfl rfl rfl rfl).vect twsr received).action.trans haction,
        hreports⟩

/-- Whatever `twi_try` takes off the queue, its transaction stands somewhere; if it
has been reported, a request was taken. -/
theorem called_of_report {t : Twi} (hreach : Reached t) (hd : Dequeues t) {es : List TwiEvent}
    (hc : Along TwiLog.step Current (.begin (twiTry t).1) es) {report : TwiReport}
    (hr : (run TwiLog.step (.begin (twiTry t).1) es).reports = [report]) :
    Called (twiTry t).1 (run TwiLog.step (.begin (twiTry t).1) es) := by
  by_cases ha : (twiTry t).1.mAction = .idle
  · have hnone := (run_invariant no_action_step ⟨ha, rfl⟩ hc).2
    rw [hr] at hnone
    cases hnone
  · obtain ⟨hs, hindex, hmode⟩ := begin_fetched hd ha hreach.data
    have hbegin : Standing (twiTry t).1 (.begin (twiTry t).1) := by
      refine .busy ⟨⟨rfl, rfl, rfl, rfl, rfl, rfl⟩, hmode, ?_, fun p hp => ?_, ?_, rfl, rfl⟩
      · change 0 < (loaded (twiTry t).1).phases
        unfold TwiRequest.phases
        omega
      · cases hp
      · change (twiTry t).1.mIndex.toNat = 0 - _
        rw [hindex, Nat.zero_sub]
        rfl
    cases run_invariant (standing_step hs) hbegin hc with
    | busy h =>
      rw [h.reports] at hr
      cases hr
    | stopped h =>
      rw [h.reports] at hr
      cases hr
    | called h => exact h

theorem status_dequeued {t : Twi} (hd : Dequeues t) : (twiTry t).1.status = t.status := by
  rw [twiTry_dequeues hd]
  unfold start actionSet
  split
  · rfl
  · dsimp only
    split_ifs <;> rfl

/-- When `twi_try` has taken a request off the queue and the callback has been
called, a success tells of the codes that were expected and of no lost arbitration,
unless all codes had the bits asked for and one of them had more. -/
theorem success_acked_iff {t : Twi} (hreach : Reached t) (hd : Dequeues t)
    {es : List TwiEvent} (hc : Along TwiLog.step Current (.begin (twiTry t).1) es)
    {report : TwiReport} (hr : (run TwiLog.step (.begin (twiTry t).1) es).reports = [report]) :
    (report.status = .success →
        (loaded (twiTry t).1).Acked (run TwiLog.step (.begin (twiTry t).1) es).seen ∧
          TwiRequest.Won (run TwiLog.step (.begin (twiTry t).1) es).seen) ↔
      (t.status ≠ .success ∨
        (loaded (twiTry t).1).Lacks ((found es).take (loaded (twiTry t).1).phases) ∨
        (loaded (twiTry t).1).Exact ((found es).take (loaded (twiTry t).1).phases)) := by
  have hcalled := called_of_report hreach hd hc hr
  have hbegin := status_dequeued hd
  have hseen : (run TwiLog.step (.begin (twiTry t).1) es).seen <+: found es := seen_found hc
  generalize (run TwiLog.step (.begin (twiTry t).1) es) = r at *
  generalize (twiTry t).1 = s at *
  rw [← hbegin]
  have htake : r.seen <+: (found es).take (loaded s).phases :=
    List.prefix_take_iff.mpr ⟨hseen, hcalled.finished.le⟩
  have hstatus : report.status = (loaded s).recorded s.status r.seen := by
    have h := hcalled.reports
    rw [hr] at h
    exact List.singleton_injective h
  have hsuccess := (loaded s).recorded_success s.status r.seen
  rw [← hstatus] at hsuccess
  by_cases hlacks : (loaded s).Lacks r.seen
  · refine ⟨fun _ => .inr (.inl (hlacks.of_prefix htake)), fun _ h => ?_⟩
    exact absurd hlacks (hsuccess.mp h).2
  · have hwhole := hcalled.finished.whole (((loaded s).passed_iff r.seen).mpr hlacks)
    have hall : (found es).take (loaded s).phases = r.seen := by
      refine (htake.eq_of_length_le ?_).symm
      rw [List.length_take, hwhole]
      exact min_le_left _ _
    rw [hall, ← TwiRequest.acked_iff hwhole]
    constructor
    · intro h
      by_cases hbegan : s.status = .success
      · exact .inr (.inr (h (hsuccess.mpr ⟨hbegan, hlacks⟩)).1)
      · exact .inl hbegan
    · rintro (hbegan | hlack | hacked) h
      · exact absurd (hsuccess.mp h).1 hbegan
      · exact absurd hlack hlacks
      · exact ⟨hacked, TwiRequest.won_of_exact ((TwiRequest.acked_iff hwhole).mp hacked) hlacks⟩

/-- A read of 128 bytes, whose header says none. -/
def longRequested : Twi := (run TwiRun.step (.slaves [0x68]) [.call (.read 0 8 3 128)]).twi

def longEvents : List TwiEvent :=
  [.vect 0x08 0, .vect 0x18 0, .vect 0x28 0, .twiTry, .vect 0x10 0, .vect 0x40 0, .vect 0x50 7,
    .twiTry]

theorem success_acked_of_read :
    (TwiReport.status (.read 0 8 .success 0 (7 :: List.replicate 127 0)) = .success →
        (loaded (twiTry longRequested).1).Acked
            (run TwiLog.step (.begin (twiTry longRequested).1) longEvents).seen ∧
          TwiRequest.Won (run TwiLog.step (.begin (twiTry longRequested).1) longEvents).seen) ↔
      (longRequested.status ≠ .success ∨
        (loaded (twiTry longRequested).1).Lacks
          ((found longEvents).take (loaded (twiTry longRequested).1).phases) ∨
        (loaded (twiTry longRequested).1).Exact
          ((found longEvents).take (loaded (twiTry longRequested).1).phases)) :=
  success_acked_iff ⟨[0x68], [.call (.read 0 8 3 128)], rfl⟩ (by decide +kernel)
    (by decide +kernel) (by decide +kernel)

def writeRequested : Twi := (run TwiRun.step (.slaves [0x68]) [.call (.write 0 7 2 [5])]).twi

/-- Arbitration is lost in the data byte of a write, which is reported as a
success. -/
def lostEvents : List TwiEvent :=
  [.vect 0x08 0, .vect 0x18 0, .vect 0x28 0, .vect 0x38 0, .twiTry]

theorem arbitration_lost :
    ¬ ∀ t, Reached t → Dequeues t → ∀ es, Along TwiLog.step Current (.begin (twiTry t).1) es →
      ∀ report, (run TwiLog.step (.begin (twiTry t).1) es).reports = [report] →
        report.status = .success →
        (loaded (twiTry t).1).Acked (run TwiLog.step (.begin (twiTry t).1) es).seen ∧
          TwiRequest.Won (run TwiLog.step (.begin (twiTry t).1) es).seen := by
  intro h
  obtain ⟨hacked, -⟩ := h writeRequested ⟨[0x68], [.call (.write 0 7 2 [5])], rfl⟩
    (by decide +kernel) lostEvents (by decide +kernel) (.write 0 7 .success)
    (by decide +kernel) rfl
  obtain ⟨p, hp, hcode⟩ := hacked 3 (by decide +kernel) (by decide +kernel)
  have hseen : (run TwiLog.step (.begin (twiTry writeRequested).1) lostEvents).seen[3]? =
      some (0x38, 0) := by decide +kernel
  rw [hseen, Option.some.injEq] at hp
  rw [← hp] at hcode
  have hdifferent : ¬ (0x38 : Byte) &&& 0xF8 =
      expectedCode ((loaded (twiTry writeRequested).1).phase 3) := by decide +kernel
  exact hdifferent hcode

end LedServer.AvrTwi
