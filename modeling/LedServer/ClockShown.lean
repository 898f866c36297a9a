import LedServer.ClockRun

set_option autoImplicit false

/-!
# The time on the display

While no transaction fails and the chip does not count, the driver comes to what the
requests ask for, one after the other. So the time that is set is shown.
-/
namespace LedServer.Avr
open AvrRing AvrTwi Machine
open RegisterQueue (Files Transfer Fine settle exec)

section

variable {σ : Type} {chip : RegisterChip σ}

/-- No check fails, and the registers change on request only. -/
def Smooth (c : Clock σ) : ClockEvent → Prop
  | .vect twsr => checkStatusRegister twsr (expectedCode c.twi.mode) = true
  | .tick => False
  | _ => True

instance (c : Clock σ) : (e : ClockEvent) → Decidable (Smooth c e)
  | .vect twsr => inferInstanceAs (Decidable (checkStatusRegister twsr _ = true))
  | .tick => .isFalse id
  | .call _ => .isTrue trivial
  | .twiTry => .isTrue trivial

/-- The driver has nothing to do. -/
structure Still (c : Clock σ) : Prop where
  mode : c.twi.mode = .idle
  action : c.twi.mAction = .idle
  empty : c.twi.queue.contents = []

theorem Still.resting {b : Both σ} (hstill : Still b.clock) (h : ClockKept chip b) : Resting b := by
  have hcurrent := h.resting.mp ⟨hstill.mode, hstill.action⟩
  rcases h.stage with hrest | ⟨s, r, hgoing⟩ | ⟨s, r, hgone⟩
  · exact hrest
  · exact absurd hcurrent hgoing.busy
  · exact absurd hcurrent hgone.busy

theorem Still.pending {b : Both σ} (hstill : Still b.clock) (h : ClockKept chip b) :
    b.files.pending = [] := by
  obtain ⟨pending, ⟨r, htwi, hr⟩, hpending⟩ := h.queue
  have hrecords := hr.records
  rw [htwi, hstill.empty] at hrecords
  rw [hpending]
  cases pending with
  | nil => rfl
  | cons request rest =>
    rw [List.flatMap_cons, eq_comm, List.append_eq_nil_iff] at hrecords
    exact absurd hrecords.1 (record_ne_nil request)

/-! ### Smooth runs -/

theorem Received.whole {current : Transfer Byte Byte Byte} {request : TwiRequest}
    {seen : List (Byte × Byte)} (h : Received current request seen) : current.Whole := by
  cases request with
  | write id tag reg data =>
    obtain ⟨reg', rfl⟩ := h
    rfl
  | read id tag reg len =>
    obtain ⟨reg', rfl, -⟩ := h
    rfl

theorem Gone.whole {b : Both σ} {s : Twi} {r : TwiLog} (h : Gone b s r)
    (hstatus : b.clock.twi.status = .success) : b.files.current.Whole := by
  have hreport := TwiRequest.report_success (loaded s) s.status s.mData r.seen
  have hown : (twiReport r.twi).status = r.twi.status := by
    unfold twiReport
    split <;> rfl
  rw [← h.ended.twiReport, hown, h.log] at hreport
  exact (h.current (hreport.mp hstatus).2).whole

theorem transfers_try (c : Clock σ) :
    transfers chip c .twiTry = if Dequeues c.twi then [.begin]
      else match (twiTry c.twi).2 with
        | some report => [.finish (report.status = .success)]
        | none => [] := rfl

/-- `twi_try` begins, reports or does nothing. -/
theorem ClockKept.try_cases {b : Both σ} (h : ClockKept chip b) :
    (Resting b ∧ Dequeues b.clock.twi ∧ transfers chip b.clock .twiTry = [.begin]) ∨
    ((∃ s r, Gone b s r) ∧ (twiTry b.clock.twi).1 = actionReset b.clock.twi ∧
      transfers chip b.clock .twiTry = [.finish (b.clock.twi.status = .success)]) ∨
    (twiTry b.clock.twi).1 = b.clock.twi ∧ transfers chip b.clock .twiTry = [] := by
  rw [transfers_try]
  rcases h.stage with hrest | ⟨s, r, hgoing⟩ | ⟨s, r, hgone⟩
  · by_cases hd : Dequeues b.clock.twi
    · exact .inl ⟨hrest, hd, if_pos hd⟩
    · have hsize : ¬ (bufferSize b.clock.twi.queue).toNat > 0 := fun hsize =>
        hd ⟨hrest.mode, hrest.action, hsize⟩
      have htry : twiTry b.clock.twi = (b.clock.twi, none) := by
        rw [twiTry, if_neg (not_not.mpr hrest.mode), if_neg (not_not.mpr hrest.action),
          if_neg hsize]
      rw [if_neg hd, htry]
      exact .inr (.inr ⟨rfl, rfl⟩)
  · have hbusy : b.clock.twi.mode ≠ .idle := by
      rw [← hgoing.log]
      exact hgoing.underway.busy
    rw [if_neg fun hd : Dequeues b.clock.twi => hbusy hd.1, twiTry, if_pos hbusy]
    exact .inr (.inr ⟨rfl, rfl⟩)
  · have hmode : b.clock.twi.mode = .idle := by
      rw [← hgone.log]
      exact hgone.ended.mode
    have haction : b.clock.twi.mAction ≠ .idle := by
      rw [← hgone.log, hgone.ended.same.action]
      exact hgone.taken.action
    have hstatus : (twiReport b.clock.twi).status = b.clock.twi.status := by
      unfold twiReport
      split <;> rfl
    rw [if_neg fun hd : Dequeues b.clock.twi => haction hd.2.1, twiTry,
      if_neg (not_not.mpr hmode), if_pos haction]
    refine .inr (.inl ⟨⟨s, r, hgone⟩, rfl, ?_⟩)
    rw [← hstatus]

/-- A smooth step makes a transfer go on. -/
theorem smooth_fine {b : Both σ} (h : ClockKept chip b) (hstatus : b.clock.twi.status = .success)
    {e : ClockEvent} (hsmooth : Smooth b.clock e) :
    Along (filesStep chip) Fine b.files (transfers chip b.clock e) := by
  cases e with
  | call request =>
    change Along (filesStep chip) Fine b.files (if (twiCall b.clock.twi request).2 then
      [.request (registerRequest request)] else [])
    split
    · exact ⟨trivial, trivial⟩
    · trivial
  | twiTry =>
    rcases h.try_cases with ⟨hrest, -, hbegin⟩ | ⟨⟨s, r, hgone⟩, -, hfinish⟩ | ⟨-, hnone⟩
    · rw [hbegin]
      exact ⟨hrest.current, trivial⟩
    · rw [hfinish]
      exact ⟨⟨decide_eq_true hstatus, hgone.whole hstatus⟩, trivial⟩
    · rw [hnone]
      trivial
  | vect twsr =>
    change Along (filesStep chip) Fine b.files (if b.clock.twi.mode ≠ .idle ∧
      Moves b.clock.twi (twiVect b.clock.twi twsr (chip.out b.clock.chip)) then [.byte] else [])
    split
    · exact ⟨trivial, trivial⟩
    · trivial
  | tick => exact absurd hsmooth id

/-- The status stays a success. -/
theorem smooth_status {b : Both σ} (h : ClockKept chip b) (hstatus : b.clock.twi.status = .success)
    {e : ClockEvent} (hsmooth : Smooth b.clock e) : (bothStep chip b e).clock.twi.status = .success := by
  cases e with
  | call request =>
    change (twiCall b.clock.twi request).1.status = .success
    rw [twiCall_frame]
    exact hstatus
  | twiTry =>
    have htwi : (bothStep chip b .twiTry).clock.twi = (twiTry b.clock.twi).1 := by
      unfold bothStep
      rw [clockStep_try]
      exact (Clock.callback_twi _ _).1
    rw [htwi]
    rcases h.try_cases with ⟨-, hd, -⟩ | ⟨-, hreset, -⟩ | ⟨hsame, -⟩
    · rw [twiTry_dequeues hd]
      exact (actionSet_cases b.clock.twi).1.trans hstatus
    · rw [hreset]
      rfl
    · rw [hsame]
      exact hstatus
  | vect twsr =>
    by_cases hidle : b.clock.twi.mode = .idle
    · have hclock : clockStep chip b.clock (.vect twsr) = b.clock := if_pos hidle
      unfold bothStep
      rw [hclock]
      exact hstatus
    · have htwi : (bothStep chip b (.vect twsr)).clock.twi =
          twiVect b.clock.twi twsr (chip.out b.clock.chip) := by
        unfold bothStep
        rw [clockStep_vect hidle]
      rw [htwi, twiVect_passed hsmooth, ← hstatus]
      unfold vectGo
      split <;> (try dsimp only) <;> (try split_ifs) <;> rfl
  | tick => exact absurd hsmooth id

variable (chip) in
/-- The requests accepted in a run. -/
def acceptedRequests : Both σ → List ClockEvent → List (RegisterQueue.Request Byte Byte Byte)
  | _, [] => []
  | b, e :: es =>
    RegisterQueue.requests (transfers chip b.clock e) ++ acceptedRequests (bothStep chip b e) es

/-- A smooth run comes to its requests, one after the other. -/
theorem settle_smooth {b : Both σ} (h : ClockKept chip b) (hstatus : b.clock.twi.status = .success)
    {es : List ClockEvent} (hsound : Along (clockStep chip) ClockSound b.clock es)
    (hsmooth : Along (clockStep chip) Smooth b.clock es) :
    settle chip.next received (run (bothStep chip) b es).files =
      (acceptedRequests chip b es).foldl (exec chip.next received)
        (settle chip.next received b.files) := by
  induction es generalizing b with
  | nil => rfl
  | cons e es ih =>
    have hnext := ih (clockKept_step b e h hsound.1) (smooth_status h hstatus hsmooth.1)
      hsound.2 hsmooth.2
    have hfiles : (bothStep chip b e).files = run (filesStep chip) b.files (transfers chip b.clock e) := rfl
    rw [run_cons, hnext, hfiles, filesStep,
      RegisterQueue.settle_run chip.next received (smooth_fine h hstatus hsmooth.1),
      acceptedRequests, List.foldl_append]

/-! ### Calls with room for them -/

theorem twiCall_accepts {t : Twi} (h : t.queue.Valid) {request : TwiRequest}
    (hs : request.Sound) (room : t.queue.count + request.record.length ≤ 255) :
    (twiCall t request).2 = true := by
  obtain ⟨hid, hpos, hle⟩ := hs
  have hspace : (bufferSpace t.queue).toNat = 255 - t.queue.count := ringSpace_toNat h
  have hid' : ¬ request.id ≥ twiIdSize := BitVec.not_le.mpr hid
  cases request with
  | write id tag reg data =>
    change data.length ≤ 127 at hle
    change 1 ≤ data.length at hpos
    have hn : (BitVec.ofNat 8 data.length).toNat = data.length := by bv_omega
    have hzero : BitVec.ofNat 8 data.length ≠ 0 := by bv_omega
    have hroom : t.queue.count + (data.length + 4) ≤ 255 := by simpa [TwiRequest.record] using room
    have hfill := twiFill_eq h (TwiRequest.write id tag reg data).record room
    rw [TwiRequest.record] at hfill
    have hchecks : ¬ (id ≥ twiIdSize ∨ BitVec.ofNat 8 data.length = 0 ∨
        (BitVec.ofNat 8 data.length).toNat > maxLen ∨
        (bufferSpace t.queue).toNat < (BitVec.ofNat 8 data.length).toNat + overhead) := by
      rw [hn, hspace, maxLen, overhead]
      rintro (h | h | h | h)
      · exact hid' h
      · exact hzero h
      · omega
      · omega
    rw [twiCall, twiWriteArray, if_neg hchecks, hn, List.take_length, hfill]
  | read id tag reg len =>
    change len.toNat ≤ 127 at hle
    change 1 ≤ len.toNat at hpos
    have hroom : t.queue.count + 4 ≤ 255 := by simpa [TwiRequest.record] using room
    have hfill := twiFill_eq h (TwiRequest.read id tag reg len).record room
    rw [TwiRequest.record] at hfill
    have hchecks : ¬ (id ≥ twiIdSize ∨ len = 0 ∨ len.toNat > maxLen ∨
        (bufferSpace t.queue).toNat < overhead) := by
      rw [hspace, maxLen, overhead]
      rintro (h | h | h | h)
      · exact hid' h
      · rw [h] at hpos
        cases hpos
      · omega
      · omega
    rw [twiCall, twiReadArray, if_neg hchecks, hfill]

/-- Calls one after the other that the queue has room for. -/
theorem accepted_calls {b : Both σ} (h : ClockKept chip b) {requests : List TwiRequest}
    (hs : ∀ request ∈ requests, request.Sound)
    (room : b.clock.twi.queue.contents.length + (requests.flatMap TwiRequest.record).length ≤ 255)
    (hsound : Along (clockStep chip) ClockSound b.clock (requests.map .call)) :
    acceptedRequests chip b (requests.map .call) = requests.map registerRequest := by
  induction requests generalizing b with
  | nil => rfl
  | cons request requests ih =>
    obtain ⟨hfirst, hrest⟩ := hsound
    rw [List.flatMap_cons, List.length_append] at room
    obtain ⟨pending, ⟨r, htwi, hr⟩, -⟩ := h.queue
    have hvalid : b.clock.twi.queue.Valid := htwi ▸ hr.valid
    have hyes : (twiCall b.clock.twi request).2 = true := by
      refine twiCall_accepts hvalid (hs request List.mem_cons_self) ?_
      rw [← contents_length]
      omega
    have htransfers : transfers chip b.clock (.call request) = [.request (registerRequest request)] :=
      if_pos hyes
    have hcontents : (bothStep chip b (.call request)).clock.twi.queue.contents =
        b.clock.twi.queue.contents ++ request.record := by
      obtain ⟨r', htwi', hr'⟩ := queued_call ⟨r, htwi, hr⟩ hfirst
      rw [hyes, if_pos rfl] at hr'
      change (twiCall b.clock.twi request).1.queue.contents = _
      rw [← htwi', hr'.records, ← htwi, hr.records, List.flatMap_append, List.flatMap_singleton]
    have hnext := ih (clockKept_step b _ h hfirst)
      (fun request hmem => hs request (List.mem_cons_of_mem _ hmem))
      (by rw [hcontents, List.length_append]; omega) hrest
    rw [List.map_cons, acceptedRequests, htransfers, hnext]
    rfl

theorem acceptedRequests_append (b : Both σ) (es ds : List ClockEvent) :
    acceptedRequests chip b (es ++ ds) =
      acceptedRequests chip b es ++ acceptedRequests chip (run (bothStep chip) b es) ds := by
  induction es generalizing b with
  | nil => rfl
  | cons e es ih =>
    rw [List.cons_append, acceptedRequests, acceptedRequests, ih, List.append_assoc]
    rfl

/-- Nothing is accepted without a call. -/
theorem accepted_none {es : List ClockEvent} (h : ∀ request, .call request ∉ es) (b : Both σ) :
    acceptedRequests chip b es = [] := by
  induction es generalizing b with
  | nil => rfl
  | cons e es ih =>
    have hnone : RegisterQueue.requests (transfers chip b.clock e) = [] := by
      cases e with
      | call request => exact absurd List.mem_cons_self (h request)
      | twiTry =>
        rw [transfers_try]
        split
        · rfl
        · split <;> rfl
      | vect twsr =>
        change RegisterQueue.requests (if b.clock.twi.mode ≠ .idle ∧
          Moves b.clock.twi (twiVect b.clock.twi twsr (chip.out b.clock.chip)) then [.byte] else []) = []
        split <;> rfl
      | tick => rfl
    rw [acceptedRequests, hnone, ih fun request hmem => h request (List.mem_cons_of_mem _ hmem)]
    rfl

/-! ### From rest to rest -/

variable (chip) in
/-- Calls of a driver that is at rest, and interrupts and `twi_try`s that bring it
back to rest without a failure. -/
structure Service (s : σ) (ds : List ClockEvent) (requests : List TwiRequest)
    (fs : List ClockEvent) : Prop where
  sound : Along (clockStep chip) ClockSound (clockStart s) (ds ++ (requests.map .call ++ fs))
  before : Still (run (clockStep chip) (clockStart s) ds)
  smooth : Along (clockStep chip) Smooth (run (clockStep chip) (clockStart s) ds)
    (requests.map .call ++ fs)
  quiet : ∀ request, .call request ∉ fs
  after : Still (run (clockStep chip) (clockStart s) (ds ++ (requests.map .call ++ fs)))

/-- The requests have been carried out in their order, and nothing else. -/
theorem Service.carried {s : σ} {ds fs : List ClockEvent} {requests : List TwiRequest}
    (h : Service chip s ds requests fs) (hs : ∀ request ∈ requests, request.Sound)
    (room : (requests.flatMap TwiRequest.record).length ≤ 255) :
    ∃ before after, before = run (clockStep chip) (clockStart s) ds ∧
      after = run (clockStep chip) (clockStart s) (ds ++ (requests.map .call ++ fs)) ∧
      (chip.regs after.chip, after.watch, after.picture) =
        (requests.map registerRequest).foldl (exec chip.next received)
          (chip.regs before.chip, before.watch, before.picture) := by
  refine ⟨_, _, rfl, rfl, ?_⟩
  have hclock : ∀ es, (run (bothStep chip) (bothStart chip s) es).clock =
      run (clockStep chip) (clockStart s) es :=
    fun es => run_part (fun _ _ => rfl) (bothStart chip s) es
  obtain ⟨hfirst, hlast⟩ := (along_append _ _ _ _ _).mp h.sound
  have hkept := bothRun_kept s hfirst
  have hkept' := bothRun_kept s h.sound
  have hbefore : Still (run (bothStep chip) (bothStart chip s) ds).clock :=
    (hclock ds).symm ▸ h.before
  have hafter :
      Still (run (bothStep chip) (bothStart chip s) (ds ++ (requests.map .call ++ fs))).clock :=
    (hclock _).symm ▸ h.after
  have hrest := hbefore.resting hkept
  have hrest' := hafter.resting hkept'
  have hsmooth := h.smooth
  have hend : (run (bothStep chip) (run (bothStep chip) (bothStart chip s) ds)
      (requests.map .call ++ fs)).clock =
        run (clockStep chip) (clockStart s) (ds ++ (requests.map .call ++ fs)) := by
    rw [← run_append]
    exact hclock _
  rw [run_append] at hafter hkept' hrest'
  rw [← hclock ds] at hlast hsmooth ⊢
  rw [← hend]
  generalize run (bothStep chip) (bothStart chip s) ds = b at *
  have hsettle := settle_smooth hkept hrest.status hlast hsmooth
  have hcalls := ((along_append _ _ _ _ _).mp hlast).1
  have haccepted : acceptedRequests chip b (requests.map .call ++ fs) =
      requests.map registerRequest := by
    rw [acceptedRequests_append, accepted_none h.quiet, List.append_nil]
    refine accepted_calls hkept hs ?_ hcalls
    rw [hbefore.empty]
    exact (Nat.zero_add _).trans_le room
  rw [haccepted, RegisterQueue.settle_rest chip.next received (hbefore.pending hkept) hrest.current,
    RegisterQueue.settle_rest chip.next received (hafter.pending hkept') hrest'.current,
    hkept.regs, hkept.shown, hkept'.regs, hkept'.shown] at hsettle
  exact hsettle

/-! ### What is shown -/

theorem rtcFrom_to : ∀ src : Byte, (rtcFrom (rtcTo src 23) .hour).toNat = min src.toNat 23 ∧
    (rtcFrom (rtcTo src 59) .minute).toNat = min src.toNat 59 ∧
    (rtcFrom (rtcTo src 59) .second).toNat = min src.toNat 59 := by
  decide +kernel

/-- One byte for one of the three tags. -/
theorem received_byte (shown : Watch × Option Buf) {tag : Byte} (h : tag < epochSize)
    (byte : Byte) : received shown tag [byte] =
      (shown.1.store tag byte, some (watchRender (shown.1.store tag byte))) := by
  have hchecks : ¬ (TwiStatus.success ≠ .success ∨ tag ≥ epochSize ∨ BitVec.ofNat 8 1 < 1) := by
    rintro (hstatus | htag | hlen)
    · exact hstatus rfl
    · exact absurd h (BitVec.not_lt.mpr htag)
    · exact absurd hlen (by decide)
  unfold received readCallback
  rw [List.length_singleton, if_neg hchecks]
  rfl

/-- `INT2_vect` comes to reading the three registers. -/
theorem exec_clockReads (next : Byte → Byte) (regs : Byte → Byte) (shown : Watch × Option Buf) :
    let watch : Watch := ⟨regs regSecond, regs regMinute, regs regHour⟩
    (clockReads.map registerRequest).foldl (exec next received) (regs, shown) =
      (regs, watch, some (watchRender watch)) := by
  have hread : ∀ (shown : Watch × Option Buf) {tag : Byte} (_ : tag < epochSize) (reg : Byte),
      exec next received (regs, shown) (.read tag reg 1) =
        (regs, shown.1.store tag (regs reg),
          some (watchRender (shown.1.store tag (regs reg)))) := by
    intro shown tag htag reg
    rw [← received_byte shown htag]
    rfl
  change exec next received (exec next received (exec next received (regs, shown)
    (.read bufferHour regHour 1)) (.read bufferMinute regMinute 1))
    (.read bufferSecond regSecond 1) = _
  rw [hread shown (by decide), hread _ (by decide), hread _ (by decide)]
  rfl

/-- The registers of the time are one behind the other. -/
structure InOrder (chip : RegisterChip σ) : Prop where
  minute : chip.next regSecond = regMinute
  hour : chip.next regMinute = regHour

/-- `watch_set` comes to the three registers. -/
theorem exec_set (hn : InOrder chip) (regs : Byte → Byte) (shown : Watch × Option Buf)
    (hour minute second : Byte) :
    let set := exec chip.next received (regs, shown)
      (registerRequest (setRequest hour minute second))
    set.1 regHour = rtcTo hour 23 ∧ set.1 regMinute = rtcTo minute 59 ∧
      set.1 regSecond = rtcTo second 59 ∧ set.2 = shown := by
  have hset : (exec chip.next received (regs, shown)
      (registerRequest (setRequest hour minute second))).1 =
        Function.update (Function.update (Function.update regs regSecond (rtcTo second 59))
          (chip.next regSecond) (rtcTo minute 59)) (chip.next (chip.next regSecond))
            (rtcTo hour 23) := rfl
  rw [hn.minute, hn.hour] at hset
  dsimp only
  rw [hset]
  exact ⟨rfl, rfl, rfl, rfl⟩

theorem clockReads_sound : ∀ request ∈ clockReads, request.Sound := by
  intro request hmem
  simp only [clockReads, List.mem_cons, List.not_mem_nil, or_false] at hmem
  rcases hmem with rfl | rfl | rfl <;> exact ⟨by decide, by decide, by decide⟩

/-- The three reads of `INT2_vect`, served from rest to rest, make the display read the
time the chip holds. -/
theorem clock_shown (chip : RegisterChip σ) {s : σ} {ds fs : List ClockEvent}
    (h : Service chip s ds clockReads fs) :
    ∃ buf, (run (clockStep chip) (clockStart s) (ds ++ (clockReads.map .call ++ fs))).picture =
        some buf ∧
      ∀ (shiftData : Buffer) (port : Byte), readClock (onDisplays shiftData port buf) =
        let regs := chip.regs (run (clockStep chip) (clockStart s) ds).chip
        some ((rtcFrom (regs regHour) .hour).toNat, (rtcFrom (regs regMinute) .minute).toNat,
          (rtcFrom (regs regSecond) .second).toNat) := by
  obtain ⟨before, after, rfl, rfl, hcarried⟩ := h.carried clockReads_sound (by decide)
  rw [exec_clockReads] at hcarried
  obtain ⟨-, hshown⟩ := Prod.mk.inj hcarried
  obtain ⟨-, hpicture⟩ := Prod.mk.inj hshown
  exact ⟨_, hpicture, fun shiftData port => clock_reads _ shiftData port⟩

/-- The time that is set is the time that is shown, while the chip does not count. -/
theorem clock_set_shown (chip : RegisterChip σ) (hn : InOrder chip) {s : σ}
    {ds fs : List ClockEvent} {hour minute second : Byte}
    (h : Service chip s ds (setRequest hour minute second :: clockReads) fs) :
    ∃ buf, (run (clockStep chip) (clockStart s)
        (ds ++ ((setRequest hour minute second :: clockReads).map .call ++ fs))).picture =
          some buf ∧
      ∀ (shiftData : Buffer) (port : Byte), readClock (onDisplays shiftData port buf) =
        some (min hour.toNat 23, min minute.toNat 59, min second.toNat 59) := by
  have hsound : ∀ request ∈ setRequest hour minute second :: clockReads, request.Sound := by
    intro request hmem
    rcases List.mem_cons.mp hmem with rfl | hmem
    · exact ⟨(by decide : (0 : Byte) < 1), Nat.le_of_ble_eq_true rfl, Nat.le_of_ble_eq_true rfl⟩
    · exact clockReads_sound request hmem
  obtain ⟨before, after, rfl, rfl, hcarried⟩ := h.carried hsound (Nat.le_of_ble_eq_true rfl)
  obtain ⟨hhour, hminute, hsecond, hshown⟩ := exec_set hn
    (chip.regs (run (clockStep chip) (clockStart s) ds).chip)
    ((run (clockStep chip) (clockStart s) ds).watch,
      (run (clockStep chip) (clockStart s) ds).picture) hour minute second
  rw [List.map_cons (f := registerRequest), List.foldl_cons] at hcarried
  generalize hset : exec chip.next received _ (registerRequest (setRequest hour minute second)) =
    set at hcarried hhour hminute hsecond
  obtain ⟨regs, shown⟩ := set
  dsimp only at hhour hminute hsecond
  rw [exec_clockReads, hhour, hminute, hsecond] at hcarried
  obtain ⟨-, hshown⟩ := Prod.mk.inj hcarried
  obtain ⟨-, hpicture⟩ := Prod.mk.inj hshown
  refine ⟨_, hpicture, fun shiftData port => ?_⟩
  rw [clock_reads, Watch.time, (rtcFrom_to hour).1, (rtcFrom_to minute).2.1,
    (rtcFrom_to second).2.2]

end

/-- The driver serves the three reads. -/
def readService : List ClockEvent :=
  .twiTry :: readVects ++ .twiTry :: .twiTry :: readVects ++ .twiTry :: .twiTry :: readVects ++
    [ClockEvent.twiTry]

/-- The driver serves a write of three bytes. -/
def setService : List ClockEvent :=
  [.twiTry, .vect 0x08, .vect 0x18, .vect 0x28, .vect 0x28, .vect 0x28, .vect 0x28, .twiTry]

/-- What is to be checked of a service from the start. -/
def Serves (s : Slave) (requests : List TwiRequest) (fs : List ClockEvent) : Prop :=
  let es := requests.map .call ++ fs
  let after := (run (clockStep Slave.chip) (clockStart s) ([] ++ es)).twi
  Along (clockStep Slave.chip) ClockSound (clockStart s) ([] ++ es) ∧
    (run (clockStep Slave.chip) (clockStart s) []).twi.queue.contents = [] ∧
    Along (clockStep Slave.chip) Smooth (run (clockStep Slave.chip) (clockStart s) []) es ∧
    after.mode = .idle ∧ after.mAction = .idle ∧ after.queue.contents = []

instance (s : Slave) (requests : List TwiRequest) (fs : List ClockEvent) :
    Decidable (Serves s requests fs) := inferInstanceAs (Decidable (_ ∧ _ ∧ _ ∧ _ ∧ _ ∧ _))

theorem Serves.service {s : Slave} {requests : List TwiRequest} {fs : List ClockEvent}
    (h : Serves s requests fs) (quiet : ∀ request, .call request ∉ fs) :
    Service Slave.chip s [] requests fs := by
  obtain ⟨hsound, hempty, hsmooth, hmode, haction, hdone⟩ := h
  exact ⟨hsound, ⟨rfl, rfl, hempty⟩, hsmooth, quiet, ⟨hmode, haction, hdone⟩⟩

theorem readService_quiet (request : TwiRequest) : .call request ∉ readService := by
  simp [readService, readVects]

theorem clock_shown_second :
    ∃ buf, (run (clockStep Slave.chip) (clockStart slaveAtTen)
        ([] ++ (clockReads.map .call ++ readService))).picture =
        some buf ∧
      ∀ (shiftData : Buffer) (port : Byte), readClock (onDisplays shiftData port buf) =
        let regs := Slave.chip.regs (run (clockStep Slave.chip) (clockStart slaveAtTen) []).chip
        some ((rtcFrom (regs regHour) .hour).toNat, (rtcFrom (regs regMinute) .minute).toNat,
          (rtcFrom (regs regSecond) .second).toNat) :=
  clock_shown Slave.chip (Serves.service (by decide +kernel) readService_quiet)

theorem clock_set_noon :
    ∃ buf, (run (clockStep Slave.chip) (clockStart slaveAtTen)
        ([] ++ ((setRequest 12 0 75 :: clockReads).map .call ++
          (setService ++ readService)))).picture =
          some buf ∧
      ∀ (shiftData : Buffer) (port : Byte), readClock (onDisplays shiftData port buf) =
        some (min 12 23, min 0 59, min 75 59) :=
  clock_set_shown Slave.chip ⟨rfl, rfl⟩
    (Serves.service (by decide +kernel) fun request hmem =>
      (List.mem_append.mp hmem).elim (by simp [setService]) (readService_quiet request))

end LedServer.Avr
