import LedServer.VerifySteps

set_option autoImplicit false

/-!
# When the function of an entry is called

All entries of `at.c` count on one entry of `cron.c`. The tick that has put each
waiting `verify` into the queue is kept beside the run, and the tick of the
`verify` that calls the function.
-/
namespace LedServer.AvrRing

variable {size : Byte}

/-- Behind a `start` of 0 a fill that does not fit is all that is lost. -/
theorem byteFill_count_other {r : Ring size} (h : r.Valid) (hstart : r.start = 0) {b x : Byte}
    (hx : b ≠ x) : (ringByteFill r b).1.contents.count x = r.contents.count x := by
  by_cases room : r.count < size.toNat
  · rw [byteFill_contents h room (by rw [hstart]; simp), List.count_append,
      List.count_singleton, if_neg (by simpa using hx), Nat.add_zero]
  · rw [byteFill_full h room]

theorem fillAll_count_other {r : Ring size} (h : r.Valid) (hstart : r.start = 0)
    {bytes : List Byte} {x : Byte} (hx : x ∉ bytes) :
    (fillAll r bytes).contents.count x = r.contents.count x := by
  induction bytes generalizing r with
  | nil => rfl
  | cons b bytes ih =>
    obtain ⟨hb, hbytes⟩ := List.ne_and_not_mem_of_not_mem_cons hx
    rw [fillAll_cons, ih (byteFill_valid h b) ((byteFill_start r b).trans hstart) hbytes,
      byteFill_count_other h hstart (Ne.symm hb)]

end LedServer.AvrRing

namespace LedServer.Avr
open AvrRing Machine

/-! ### A tick of the entry -/

/-- What a tick queues behind the entry of `at.c`, which comes first. -/
def queuedAfter (t : Timers) : List Byte :=
  ([CronId.idFan, .idFlush, .idHeartbeat].filter fun i => Due t i).map CronId.toByte

theorem queued_eq (t : Timers) :
    queued t = (if Due t .idAt then [CronId.idAt.toByte] else []) ++ queuedAfter t := by
  unfold queued queuedAfter CronId.all
  by_cases hdue : Due t .idAt
  · rw [List.filter_cons_of_pos (by simpa using hdue), if_pos hdue]
    rfl
  · rw [List.filter_cons_of_neg (by simpa using hdue), if_neg hdue]
    rfl

theorem queuedAfter_other (t : Timers) : CronId.idAt.toByte ∉ queuedAfter t := by
  unfold queuedAfter
  rw [List.mem_map]
  rintro ⟨i, hi, he⟩
  rw [toByte_inj he] at hi
  exact absurd (List.mem_filter.mp hi).1 (by decide)

/-- The queue loses no tick of `at.c` when this tick is put into it. -/
def Kept (t : Timers) : Prop :=
  (Due t .idAt → t.queue.start = 0 → t.queue.count < 64) ∧
    (t.queue.start ≠ 0 → (CronId.idAt.toByte ∈ t.queue.contents ∨ Due t .idAt) →
      t.queue.count + (queued t).length < 64)

instance (t : Timers) : Decidable (Kept t) := inferInstanceAs (Decidable (_ ∧ _))

theorem kept_count {t : Timers} (h : t.queue.Valid) (hk : Kept t) :
    (interruptFunction t).queue.contents.count CronId.idAt.toByte =
      t.queue.contents.count CronId.idAt.toByte + if Due t .idAt then 1 else 0 := by
  have hother := queuedAfter_other t
  rw [interruptFunction_eq]
  dsimp only
  by_cases hstart : t.queue.start = 0
  · rw [queued_eq]
    split
    · rename_i hdue
      have room := hk.1 hdue hstart
      have hsafe : ¬ (0 < t.queue.start.toNat ∧ t.queue.count + 1 = (64 : Byte).toNat) := by
        rw [hstart]
        simp
      rw [List.singleton_append, fillAll_cons,
        fillAll_count_other (byteFill_valid h _) ((byteFill_start _ _).trans hstart) hother,
        byteFill_contents h room hsafe, List.count_append, List.count_singleton_self]
    · rw [List.nil_append, fillAll_count_other h hstart hother, Nat.add_zero]
  · by_cases hat : CronId.idAt.toByte ∈ t.queue.contents ∨ Due t .idAt
    · have room := hk.2 hstart hat
      have hsize : (64 : Byte).toNat = 64 := rfl
      rw [fillAll_contents h _ (by omega) (by omega), List.count_append, queued_eq,
        List.count_append, List.count_eq_zero.mpr hother]
      split <;> rfl
    · obtain ⟨hnone, hdue⟩ := not_or.mp hat
      have hempty : CronId.idAt.toByte ∉ (fillAll t.queue (queued t)).contents := by
        intro hmem
        rcases fillAll_mem h hmem with hold | hnew
        · exact hnone hold
        · exact hdue (queued_mem.mp hnew)
      rw [List.count_eq_zero.mpr hempty, List.count_eq_zero.mpr hnone, if_neg hdue]

/-! ### The run and what is kept beside it -/

/-- The ticks since `at_schedule`, those of the waiting entries of `at.c`, that
of the `verify` called last, and with each call of the function the tick it is
called on. -/
structure Alarm where
  cpu : AtCpu
  ticks : ℕ
  waiting : List ℕ
  running : ℕ
  rung : List (ℕ × Option AtCallback)

/-- The entry whose function is running. -/
def VerifyAt.called : VerifyAt → Option AtId
  | .within id _ => some id
  | _ => none

def alarmStep (id : AtId) (a : Alarm) (e : AtEvent) : Alarm :=
  match e, a.cpu.pc with
  | .tick, .outside =>
    { a with
      cpu := atStep a.cpu e
      ticks := a.ticks + 1
      waiting := a.waiting ++ if Due a.cpu.timers .idAt then [a.ticks + 1] else [] }
  | .proceed, .outside =>
    if a.cpu.timers.queue.contents.head? = some CronId.idAt.toByte then
      { a with cpu := atStep a.cpu e, running := a.waiting.headD 0, waiting := a.waiting.tail }
    else { a with cpu := atStep a.cpu e }
  | .proceed, .loop _ =>
    { a with
      cpu := atStep a.cpu e
      rung := a.rung ++
        if (atStep a.cpu e).pc.called = some id then [(a.running, a.cpu.timers.callback id)]
        else [] }
  | _, _ => { a with cpu := atStep a.cpu e }

theorem alarmStep_cpu (id : AtId) (a : Alarm) (e : AtEvent) :
    (alarmStep id a e).cpu = atStep a.cpu e := by
  unfold alarmStep
  split
  · rfl
  · split <;> rfl
  · rfl
  · rfl

def due (d : Byte) : ℕ := atDelay.toNat * d.toNat

/-- The `verify` of the tick that is due has come past the entry. -/
def Over (id : AtId) (d : Byte) (a : Alarm) : Prop :=
  due d ≤ a.ticks ∧ due d ∉ a.waiting ∧ ¬ (a.running = due d ∧ id ∈ a.cpu.pc.ahead)

instance (id : AtId) (d : Byte) (a : Alarm) : Decidable (Over id d a) :=
  inferInstanceAs (Decidable (_ ∧ _ ∧ _))

/-- The function is called once, by the `verify` of the tick that is due. -/
def Punctual (id : AtId) (d : Byte) (cb : AtCallback) (a : Alarm) : Prop :=
  a.rung = if Over id d a then [(due d, some cb)] else []

instance (id : AtId) (d : Byte) (cb : AtCallback) (a : Alarm) : Decidable (Punctual id d cb a) :=
  inferInstanceAs (Decidable (_ = _))

/-- `verify` and its entry of `cron.c` are known to `at.c` alone. -/
def Proper : AtEvent → Prop
  | .call (.enable i _ callback) => i ≠ .idAt ∧ callback ≠ .atVerify
  | .call (.disable i) => i ≠ .idAt
  | _ => True

instance : DecidablePred Proper := fun e => by
  unfold Proper
  split <;> infer_instance

def OnOther (id : AtId) : AtEvent → Prop
  | .call (.schedule i _ _) => i ≠ id
  | .call (.postpone i) => i ≠ id
  | .call (.cancel i) => i ≠ id
  | _ => True

instance (id : AtId) : DecidablePred (OnOther id) := fun e => by
  unfold OnOther
  split <;> infer_instance

/-- While the entry waits no tick of `at.c` is lost, and until it is due the
others are scheduled only when a tick of `at.c` has just been counted in full. -/
def Undelayed (id : AtId) (d : Byte) (a : Alarm) : AtEvent → Prop
  | .tick => a.cpu.pc = .outside → a.cpu.timers.callback id ≠ none → Kept a.cpu.timers
  | .call (.schedule _ _ _) => a.ticks < due d → a.cpu.timers.counterArray .idAt = 0
  | _ => True

instance (id : AtId) (d : Byte) (a : Alarm) (e : AtEvent) : Decidable (Undelayed id d a e) := by
  unfold Undelayed
  split <;> infer_instance

/-- No earlier tick is left for `verify`, and the `verify` under way, if any, is
neither before the entry nor in its function. -/
def Clear (id : AtId) (c : AtCpu) : Prop :=
  CronId.idAt.toByte ∉ c.timers.queue.contents ∧ id ∉ c.pc.ahead ∧ c.pc.called ≠ some id

instance (id : AtId) (c : AtCpu) : Decidable (Clear id c) :=
  inferInstanceAs (Decidable (_ ∧ _ ∧ _))

def atPower : AtCpu := ⟨timersInit, .outside⟩

def alarmStart (c : AtCpu) (id : AtId) (d : Byte) (cb : AtCallback) : Alarm :=
  ⟨atStep c (.call (.schedule id d cb)), 0, [], 0, []⟩

/-! ### `cron.c` under `at.c` -/

structure Ready (t : Timers) : Prop where
  valid : t.queue.Valid
  own : ∀ i, i ≠ CronId.idAt → t.callbackArray i ≠ some .atVerify

theorem cronPop_fst {t : Timers} (h : t.queue.Valid) :
    ∃ queue : Buf, queue.Valid ∧ (cronPop t).1 = { t with queue := queue } := by
  cases hc : t.queue.contents with
  | nil => exact ⟨t.queue, h, by rw [cronPop_nil hc]⟩
  | cons b rest =>
    obtain ⟨queue, hv, -, hpop⟩ := cronPop_cons h hc
    exact ⟨queue, hv, by rw [hpop]⟩

namespace Ready

variable {t : Timers}

theorem enable (h : Ready t) {i : CronId} {callback : CronCallback} (factor : Byte)
    (hown : i = .idAt ∨ callback ≠ .atVerify) : Ready (cronEnable t i factor callback) := by
  rw [cronEnable_eq]
  refine ⟨h.valid, fun j hj => ?_⟩
  dsimp only
  by_cases hji : j = i
  · subst hji
    rw [Function.update_self]
    exact fun he => (hown.resolve_left hj) (Option.some.inj he)
  · rw [Function.update_of_ne hji]
    exact h.own j hj

theorem disable (h : Ready t) (i : CronId) : Ready (cronDisable t i) := by
  obtain ⟨engaged, he⟩ := cronDisable_eq t i
  rw [he]
  refine ⟨h.valid, fun j hj => ?_⟩
  dsimp only
  by_cases hji : j = i
  · subst hji
    rw [Function.update_self]
    simp
  · rw [Function.update_of_ne hji]
    exact h.own j hj

theorem cancel (h : Ready t) (i : AtId) : Ready (atCancel t i) := by
  have hclear : Ready { t with callback := Function.update t.callback i none } := ⟨h.valid, h.own⟩
  unfold atCancel
  dsimp only
  split
  · exact hclear.disable .idAt
  · exact hclear

theorem call (h : Ready t) {c : TimerCall} (hp : Proper (.call c)) : Ready (timerCall t c) := by
  cases c with
  | schedule i delay cb =>
    have hset : Ready { t with
        current := Function.update t.current i 0
        max := Function.update t.max i delay
        callback := Function.update t.callback i (some cb) } := ⟨h.valid, h.own⟩
    exact hset.enable atDelay (.inl rfl)
  | postpone i => exact ⟨h.valid, h.own⟩
  | cancel i => exact h.cancel i
  | enable i factor callback => exact h.enable factor (.inr hp.2)
  | disable i => exact h.disable i

theorem step {c : AtCpu} (h : Ready c.timers) {e : AtEvent} (hp : Proper e) :
    Ready (atStep c e).timers := by
  cases e with
  | tick =>
    unfold atStep
    dsimp only
    split
    · rw [interruptFunction_eq]
      exact ⟨fillAll_valid h.valid _, h.own⟩
    · exact h
  | proceed =>
    obtain ⟨queue, hv, hpop⟩ := cronPop_fst h.valid
    unfold atStep proceed
    dsimp only
    split
    · dsimp only
      rw [hpop]
      exact ⟨hv, h.own⟩
    · exact h
    · split
      · exact h
      · exact ⟨h.valid, h.own⟩
    · exact h.cancel _
  | call c => exact h.call hp

end Ready

/-! ### Before the call -/

/-- The ticks on which `at.c` is queued, after `done` times and up to `k` times. -/
def stamps (done k : ℕ) : List ℕ := (List.range' (done + 1) (k - done)).map (atDelay.toNat * ·)

theorem stamps_self (k : ℕ) : stamps k k = [] := by
  unfold stamps
  rw [Nat.sub_self]
  rfl

theorem stamps_snoc {done k : ℕ} (h : done ≤ k) :
    stamps done (k + 1) = stamps done k ++ [atDelay.toNat * (k + 1)] := by
  have hlen : k + 1 - done = k - done + 1 := by omega
  have hlast : done + 1 + 1 * (k - done) = k + 1 := by omega
  unfold stamps
  rw [hlen, List.range'_concat, List.map_append, hlast]
  rfl

theorem stamps_cons {done k : ℕ} (h : done < k) :
    stamps done k = atDelay.toNat * (done + 1) :: stamps (done + 1) k := by
  have hlen : k - done = k - (done + 1) + 1 := by omega
  unfold stamps
  rw [hlen, List.range'_succ, List.map_cons]

theorem stamps_last {done k : ℕ} (h : done < k) : atDelay.toNat * k ∈ stamps done k := by
  unfold stamps
  exact List.mem_map.mpr ⟨k, List.mem_range'_1.mpr (by omega), rfl⟩

/-- `at.c` has been queued `k` times since, and `verify` called `done` times; what
is queued after the tick that is due follows in `later`. -/
structure Counting (id : AtId) (d : Byte) (cb : AtCallback) (a : Alarm) (done k : ℕ)
    (later : List ℕ) : Prop where
  registered : a.cpu.timers.callbackArray .idAt = some .atVerify
  factor : a.cpu.timers.factorArray .idAt = atDelay
  counter : a.cpu.timers.counterArray .idAt < atDelay
  entry : a.cpu.timers.callback id = some cb
  max : a.cpu.timers.max id = d
  below : a.cpu.timers.current id < d
  started : (a.cpu.timers.current id).toNat + a.cpu.pc.ahead.count id = done
  order : done ≤ k ∧ k ≤ d.toNat
  elapsed : k < d.toNat → later = [] ∧
    a.ticks = atDelay.toNat * k + (a.cpu.timers.counterArray .idAt).toNat
  reached : k = d.toNat → due d ≤ a.ticks
  waiting : a.waiting = stamps done k ++ later
  later : ∀ s ∈ later, due d < s
  queued : a.waiting.length = a.cpu.timers.queue.contents.count CronId.idAt.toByte
  running : id ∈ a.cpu.pc.ahead → a.running = atDelay.toNat * done
  silent : a.rung = []
  notCalled : a.cpu.pc.called ≠ some id

def Awaited (id : AtId) (d : Byte) (cb : AtCallback) (a : Alarm) : Prop :=
  ∃ done k later, Counting id d cb a done k later

/-- The tick that is due has come, and its `verify` past the entry. -/
structure Rung (id : AtId) (d : Byte) (cb : AtCallback) (a : Alarm) : Prop where
  rung : a.rung = [(due d, some cb)]
  past : due d ≤ a.ticks
  waiting : ∀ s ∈ a.waiting, due d < s
  behind : a.running = due d → id ∉ a.cpu.pc.ahead
  cleared : a.cpu.timers.callback id = none ∨ a.cpu.pc.called = some id

theorem Counting.punctual {id : AtId} {d : Byte} {cb : AtCallback} {a : Alarm} {done k : ℕ}
    {later : List ℕ} (h : Counting id d cb a done k later) : Punctual id d cb a := by
  have hnot : ¬ Over id d a := by
    rintro ⟨hpast, hwaiting, hbehind⟩
    obtain ⟨hdone, hk⟩ := h.order
    have hcounter : (a.cpu.timers.counterArray .idAt).toNat < atDelay.toNat := h.counter
    have hkd : k = d.toNat := by
      rcases Nat.lt_or_ge k d.toNat with hlt | hge
      · have hticks := (h.elapsed hlt).2
        have hnext : atDelay.toNat * (k + 1) ≤ due d := Nat.mul_le_mul_left _ hlt
        rw [Nat.mul_succ] at hnext
        omega
      · omega
    subst hkd
    rcases Nat.lt_or_ge done d.toNat with hlt | hge
    · refine hwaiting ?_
      rw [h.waiting]
      exact List.mem_append_left _ (stamps_last hlt)
    · -- every tick up to the one that is due has been taken: its `verify` is under way
      have hall : done = d.toNat := by omega
      have hbelow : (a.cpu.timers.current id).toNat < d.toNat := h.below
      have hstarted := h.started
      have hahead : id ∈ a.cpu.pc.ahead := List.count_pos_iff.mp (by omega)
      refine hbehind ⟨?_, hahead⟩
      rw [h.running hahead, hall]
      rfl
  unfold Punctual
  rw [if_neg hnot, h.silent]

theorem Rung.punctual {id : AtId} {d : Byte} {cb : AtCallback} {a : Alarm}
    (h : Rung id d cb a) : Punctual id d cb a := by
  have hover : Over id d a :=
    ⟨h.past, fun hmem => Nat.lt_irrefl _ (h.waiting _ hmem), fun hrun => h.behind hrun.1 hrun.2⟩
  unfold Punctual
  rw [if_pos hover, h.rung]

/-- The entry and what it counts on are as before; the shared counter may have
been cleared when the tick that is due has come. -/
structure Agrees (id : AtId) (t t' : Timers) : Prop where
  queue : t'.queue.contents.count CronId.idAt.toByte = t.queue.contents.count CronId.idAt.toByte
  registered : t'.callbackArray .idAt = t.callbackArray .idAt
  factor : t'.factorArray .idAt = t.factorArray .idAt
  entry : t'.callback id = t.callback id
  max : t'.max id = t.max id
  current : t'.current id = t.current id

section Phases

variable {id : AtId} {d : Byte} {cb : AtCallback} {done k : ℕ} {later : List ℕ}

theorem Counting.of_agrees {a : Alarm} (h : Counting id d cb a done k later) {t : Timers}
    {p : VerifyAt} (ht : Agrees id a.cpu.timers t)
    (hcounter : t.counterArray .idAt = a.cpu.timers.counterArray .idAt ∨
      (t.counterArray .idAt = 0 ∧ ¬ k < d.toNat))
    (hahead : p.ahead.count id = a.cpu.pc.ahead.count id) (hcalled : p.called ≠ some id) :
    Counting id d cb { a with cpu := ⟨t, p⟩ } done k later where
  registered := ht.registered.trans h.registered
  factor := ht.factor.trans h.factor
  counter := by
    rcases hcounter with hc | ⟨hc, -⟩
    · exact hc ▸ h.counter
    · rw [hc]
      decide
  entry := ht.entry.trans h.entry
  max := ht.max.trans h.max
  below := ht.current ▸ h.below
  started := by
    rw [ht.current, hahead]
    exact h.started
  order := h.order
  elapsed hlt := by
    rcases hcounter with hc | ⟨-, hk⟩
    · rw [hc]
      exact h.elapsed hlt
    · exact absurd hlt hk
  reached := h.reached
  waiting := h.waiting
  later := h.later
  queued := by
    rw [ht.queue]
    exact h.queued
  running hmem := h.running (List.count_pos_iff.mp (hahead ▸ List.count_pos_iff.mpr hmem))
  silent := h.silent
  notCalled := hcalled

theorem due_registered {t : Timers} (hr : t.callbackArray .idAt = some .atVerify)
    (hf : t.factorArray .idAt = atDelay) : Due t .idAt ↔ t.counterArray .idAt + 1 ≥ atDelay := by
  unfold Due
  rw [hr, hf]
  simp

theorem counting_tick {a : Alarm} (h : Counting id d cb a done k later) (hpc : a.cpu.pc = .outside)
    (hready : Ready a.cpu.timers) (hk : Kept a.cpu.timers) :
    Awaited id d cb (alarmStep id a .tick) := by
  obtain ⟨⟨t, pc⟩, ticks, waiting, running, rung⟩ := a
  dsimp only at hpc hready hk
  subst hpc
  have hdue := due_registered h.registered h.factor
  have hcount := kept_count hready.valid hk
  have hcounter : (t.counterArray .idAt).toNat < atDelay.toNat := h.counter
  have hperiod : atDelay.toNat = 200 := rfl
  have hstep : alarmStep id ⟨⟨t, .outside⟩, ticks, waiting, running, rung⟩ .tick =
      ⟨⟨interruptFunction t, .outside⟩, ticks + 1,
        waiting ++ if Due t .idAt then [ticks + 1] else [], running, rung⟩ := rfl
  have hticked : (interruptFunction t).counterArray .idAt =
      if Due t .idAt then 0 else t.counterArray .idAt + 1 := by
    rw [interruptFunction_eq]
    dsimp only
    unfold ticked
    rw [if_neg (by rw [h.registered]; simp), h.factor]
    exact ite_congr (propext hdue.symm) (fun _ => rfl) fun _ => rfl
  have hqueued : (waiting ++ if Due t .idAt then [ticks + 1] else []).length =
      (interruptFunction t).queue.contents.count CronId.idAt.toByte := by
    rw [hcount, List.length_append, h.queued]
    split <;> rfl
  have hsame : ∀ {k : ℕ} {later : List ℕ}, done ≤ k ∧ k ≤ d.toNat →
      (k < d.toNat → later = [] ∧ ticks + 1 = atDelay.toNat * k +
        ((interruptFunction t).counterArray .idAt).toNat) → (k = d.toNat → due d ≤ ticks + 1) →
      (waiting ++ if Due t .idAt then [ticks + 1] else []) = stamps done k ++ later →
      (∀ s ∈ later, due d < s) →
      Counting id d cb (alarmStep id ⟨⟨t, .outside⟩, ticks, waiting, running, rung⟩ .tick) done k
        later := by
    intro k later horder helapsed hreached hwaiting hlater
    rw [hstep]
    rw [interruptFunction_eq] at helapsed hqueued hticked ⊢
    refine ⟨h.registered, h.factor, ?_, h.entry, h.max, h.below, h.started, horder, helapsed,
      hreached, hwaiting, hlater, hqueued, h.running, h.silent, h.notCalled⟩
    rw [hticked]
    by_cases hd : Due t .idAt
    · rw [if_pos hd]
      decide
    · rw [if_neg hd]
      exact BitVec.not_le.mp fun hle => hd (hdue.mpr hle)
  obtain ⟨horder, hkd⟩ := h.order
  by_cases hd : Due t .idAt
  · have hfull : (t.counterArray .idAt).toNat + 1 = atDelay.toNat := by
      have hle : (atDelay.toNat : ℕ) ≤ (t.counterArray .idAt + 1).toNat := hdue.mp hd
      bv_omega
    rcases Nat.lt_or_ge k d.toNat with hlt | hge
    · -- the tick that comes to the next multiple of the delay
      obtain ⟨rfl, hticks⟩ := h.elapsed hlt
      have hnext : ticks + 1 = atDelay.toNat * (k + 1) := by
        rw [Nat.mul_succ]
        dsimp only at hticks
        omega
      refine ⟨done, k + 1, [], hsame ⟨by omega, by omega⟩ (fun _ => ⟨rfl, ?_⟩) (fun hreach => ?_) ?_
        (by simp)⟩
      · rw [hticked, if_pos hd, hnext]
        rfl
      · unfold due
        rw [hnext, hreach]
      · rw [if_pos hd, stamps_snoc horder, hnext, List.append_nil]
        have hw := h.waiting
        rw [List.append_nil] at hw
        exact congrArg (· ++ [atDelay.toNat * (k + 1)]) hw
    · have hreach : k = d.toNat := by omega
      have hpast : due d ≤ ticks := h.reached hreach
      refine ⟨done, k, later ++ [ticks + 1], hsame h.order (fun hlt => by omega)
        (fun _ => by omega) ?_ ?_⟩
      · rw [if_pos hd, ← List.append_assoc]
        exact congrArg (· ++ [ticks + 1]) h.waiting
      · intro s hs
        rcases List.mem_append.mp hs with hold | hnew
        · exact h.later s hold
        · rw [List.mem_singleton.mp hnew]
          omega
  · have hless : (t.counterArray .idAt + 1).toNat = (t.counterArray .idAt).toNat + 1 := by
      bv_omega
    refine ⟨done, k, later, hsame h.order (fun hlt => ?_) (fun hreach => ?_) ?_ h.later⟩
    · obtain ⟨hl, hticks⟩ := h.elapsed hlt
      refine ⟨hl, ?_⟩
      rw [hticked, if_neg hd, hless]
      dsimp only at hticks
      omega
    · have hpast : due d ≤ ticks := h.reached hreach
      omega
    · rw [if_neg hd, List.append_nil]
      exact h.waiting

theorem cronCalled_at {t : Timers} (h : t.queue.Valid) {rest : List Byte}
    (hc : t.queue.contents = CronId.idAt.toByte :: rest)
    (hr : t.callbackArray .idAt = some .atVerify) : cronCalled t = .loop AtId.all := by
  obtain ⟨queue, -, -, hpop⟩ := cronPop_cons h hc
  refine if_pos ?_
  rw [hpop, ofByte_toByte, Option.bind_some, hr]
  rfl

/-- No other entry of `cron.c` calls `verify`. -/
theorem cronCalled_other {t : Timers} (h : Ready t) {b : Byte} {rest : List Byte}
    (hc : t.queue.contents = b :: rest) (hb : b ≠ CronId.idAt.toByte) :
    cronCalled t = .outside := by
  obtain ⟨queue, -, -, hpop⟩ := cronPop_cons h.valid hc
  unfold cronCalled
  rw [hpop]
  refine if_neg fun hverify => ?_
  obtain ⟨⟨i, callback⟩, hcalled, hcb⟩ := Option.map_eq_some_iff.mp hverify
  obtain ⟨j, hj, hreg⟩ := Option.bind_eq_some_iff.mp hcalled
  obtain ⟨cb, hentry, he⟩ := Option.map_eq_some_iff.mp hreg
  obtain ⟨rfl, rfl⟩ := Prod.mk.inj he
  dsimp only at hcb
  subst hcb
  refine h.own j (fun hat => hb ?_) hentry
  rw [← toByte_of_ofByte hj, hat]

theorem counting_outside {a : Alarm} (h : Counting id d cb a done k later)
    (hpc : a.cpu.pc = .outside) (hready : Ready a.cpu.timers) :
    Awaited id d cb (alarmStep id a .proceed) := by
  obtain ⟨⟨t, pc⟩, ticks, waiting, running, rung⟩ := a
  dsimp only at hpc hready
  subst hpc
  have hstep : alarmStep id ⟨⟨t, .outside⟩, ticks, waiting, running, rung⟩ .proceed =
      if t.queue.contents.head? = some CronId.idAt.toByte then
        ⟨⟨(cronPop t).1, cronCalled t⟩, ticks, waiting.tail, waiting.headD 0, rung⟩
      else ⟨⟨(cronPop t).1, cronCalled t⟩, ticks, waiting, running, rung⟩ := rfl
  rw [hstep]
  cases hc : t.queue.contents with
  | nil =>
    have hcalled : cronCalled t = .outside := by
      unfold cronCalled
      rw [cronPop_nil hc]
      rfl
    rw [if_neg (by simp), cronPop_nil hc, hcalled]
    exact ⟨done, k, later, h⟩
  | cons b rest =>
    obtain ⟨queue, hv, hrest, hpop⟩ := cronPop_cons hready.valid hc
    have hqueued : waiting.length = t.queue.contents.count CronId.idAt.toByte := h.queued
    rw [hc] at hqueued
    rw [List.head?_cons, hpop]
    dsimp only
    by_cases hb : b = CronId.idAt.toByte
    · subst hb
      rw [if_pos rfl, cronCalled_at hready.valid hc h.registered]
      rw [List.count_cons_self] at hqueued
      obtain ⟨horder, hkd⟩ := h.order
      have hstarted : (t.current id).toNat + 0 = done := h.started
      have hbelow : (t.current id).toNat < d.toNat := h.below
      have hwaiting : waiting = stamps done k ++ later := h.waiting
      have hlt : done < k := by
        refine Nat.lt_of_le_of_ne horder fun he => ?_
        subst he
        obtain ⟨rfl, -⟩ := h.elapsed (by omega)
        rw [hwaiting, stamps_self] at hqueued
        exact absurd hqueued (by simp)
      rw [stamps_cons hlt, List.cons_append] at hwaiting
      subst hwaiting
      have hall : AtId.all.count id = 1 := by cases id <;> rfl
      refine ⟨done + 1, k, later, h.registered, h.factor, h.counter, h.entry, h.max, h.below, ?_,
        ⟨hlt, hkd⟩, h.elapsed, h.reached, rfl, h.later, ?_, fun _ => rfl, h.silent,
        by simp [VerifyAt.called]⟩
      · change (t.current id).toNat + AtId.all.count id = done + 1
        omega
      · dsimp only
        rw [hrest]
        exact Nat.succ.inj hqueued
    · have hhead : ¬ some b = some CronId.idAt.toByte := fun he => hb (Option.some.inj he)
      rw [if_neg hhead, cronCalled_other hready hc hb]
      refine ⟨done, k, later, h.of_agrees (t := { t with queue := queue })
        ⟨?_, rfl, rfl, rfl, rfl, rfl⟩ (.inl rfl) rfl h.notCalled⟩
      dsimp only
      rw [hrest, hc, List.count_cons_of_ne hb]

theorem proceed_free {t : Timers} {i : AtId} {rest : List AtId} (h : t.callback i = none) :
    proceed ⟨t, .loop (i :: rest)⟩ = ⟨t, .loop rest⟩ := if_pos h

theorem proceed_taken {t : Timers} {i : AtId} {rest : List AtId} (h : t.callback i ≠ none) :
    proceed ⟨t, .loop (i :: rest)⟩ =
      ⟨{ t with current := Function.update t.current i (t.current i + 1) },
        if t.current i + 1 ≥ t.max i then .within i rest else .loop rest⟩ := if_neg h

/-- `verify` looks at the next entry, ours perhaps. -/
theorem counting_loop {a : Alarm} (h : Counting id d cb a done k later) {rest : List AtId}
    (hpc : a.cpu.pc = .loop rest) (honce : rest.count id ≤ 1) :
    Awaited id d cb (alarmStep id a .proceed) ∨ Rung id d cb (alarmStep id a .proceed) := by
  obtain ⟨⟨t, pc⟩, ticks, waiting, running, rung⟩ := a
  dsimp only at hpc
  subst hpc
  have hstep : alarmStep id ⟨⟨t, .loop rest⟩, ticks, waiting, running, rung⟩ .proceed =
      ⟨proceed ⟨t, .loop rest⟩, ticks, waiting, running, rung ++
        if (proceed ⟨t, .loop rest⟩).pc.called = some id then [(running, t.callback id)]
        else []⟩ := rfl
  rw [hstep]
  have hsilent : rung = [] := h.silent
  subst hsilent
  cases rest with
  | nil => exact .inl ⟨done, k, later, h.of_agrees (t := t) (p := .outside)
      ⟨rfl, rfl, rfl, rfl, rfl, rfl⟩ (.inl rfl) rfl (by simp [VerifyAt.called])⟩
  | cons i rest =>
    by_cases hi : i = id
    · subst hi
      have hnone : t.callback i ≠ none := by
        rw [show t.callback i = some cb from h.entry]
        simp
      have hlast : i ∉ rest := by
        rw [List.count_cons_self] at honce
        exact List.count_eq_zero.mp (by omega)
      have hmax : t.max i = d := h.max
      have hbelow : t.current i < d := h.below
      have hstarted : (t.current i).toNat + (i :: rest).count i = done := h.started
      have hnext : (t.current i + 1).toNat = (t.current i).toNat + 1 := by bv_omega
      have hrunning : running = atDelay.toNat * done := h.running List.mem_cons_self
      rw [List.count_cons_self, List.count_eq_zero.mpr hlast] at hstarted
      rw [proceed_taken hnone, hmax]
      by_cases hring : t.current i + 1 ≥ d
      · right
        have hdone : done = d.toNat := by bv_omega
        obtain ⟨horder, hkd⟩ := h.order
        have hk : k = done := by omega
        have hwaiting : waiting = stamps done k ++ later := h.waiting
        rw [hk, stamps_self, List.nil_append] at hwaiting
        have hpast : due d ≤ ticks := h.reached (by omega)
        rw [if_pos hring]
        refine ⟨?_, hpast, ?_, fun _ => hlast, .inr rfl⟩
        · rw [List.nil_append, if_pos (by simp [VerifyAt.called]), hrunning, hdone,
            show t.callback i = some cb from h.entry]
          rfl
        · rw [hwaiting]
          exact h.later
      · left
        rw [if_neg hring]
        refine ⟨done, k, later, h.registered, h.factor, h.counter, h.entry, h.max, ?_, ?_, h.order,
          h.elapsed, h.reached, h.waiting, h.later, h.queued, fun hmem => absurd hmem hlast, ?_,
          by simp [VerifyAt.called]⟩
        · dsimp only
          rw [Function.update_self]
          exact BitVec.not_le.mp hring
        · dsimp only [VerifyAt.ahead]
          rw [Function.update_self, List.count_eq_zero.mpr hlast]
          omega
        · simp [VerifyAt.called]
    · left
      have hahead : rest.count id = (i :: rest).count id := by
        rw [List.count_cons_of_ne hi]
      by_cases hnone : t.callback i = none
      · rw [proceed_free hnone]
        exact ⟨done, k, later, h.of_agrees (t := t) (p := .loop rest)
          ⟨rfl, rfl, rfl, rfl, rfl, rfl⟩ (.inl rfl) hahead (by simp [VerifyAt.called])⟩
      · have hother : Agrees id t { t with
            current := Function.update t.current i (t.current i + 1) } :=
          ⟨rfl, rfl, rfl, rfl, rfl, Function.update_of_ne (Ne.symm hi) _ _⟩
        have hcalled : (if t.current i + 1 ≥ t.max i then VerifyAt.within i rest
            else .loop rest).called ≠ some id := by
          split
          · simpa [VerifyAt.called] using hi
          · simp [VerifyAt.called]
        rw [proceed_taken hnone, if_neg hcalled]
        refine ⟨done, k, later, h.of_agrees hother (.inl rfl) ?_ hcalled⟩
        split <;> exact hahead

theorem agrees_cancel {t : Timers} {i : AtId} (hi : i ≠ id) (hentry : t.callback id ≠ none) :
    Agrees id t (atCancel t i) ∧ (atCancel t i).counterArray = t.counterArray := by
  have hsome : ¬ atAllEmpty { t with callback := Function.update t.callback i none } = true := by
    rw [atAllEmpty_iff]
    intro hempty
    exact hentry ((Function.update_of_ne (Ne.symm hi) _ _).symm.trans (hempty id))
  unfold atCancel
  dsimp only
  rw [if_neg hsome]
  exact ⟨⟨rfl, rfl, rfl, Function.update_of_ne (Ne.symm hi) _ _, rfl, rfl⟩, rfl⟩

theorem counting_within {a : Alarm} (h : Counting id d cb a done k later) {i : AtId}
    {rest : List AtId} (hpc : a.cpu.pc = .within i rest) :
    Awaited id d cb (alarmStep id a .proceed) := by
  obtain ⟨⟨t, pc⟩, ticks, waiting, running, rung⟩ := a
  dsimp only at hpc
  subst hpc
  have hi : i ≠ id := fun he => h.notCalled (congrArg some he)
  have hentry : t.callback id ≠ none := by
    rw [show t.callback id = some cb from h.entry]
    simp
  obtain ⟨hagrees, hcounter⟩ := agrees_cancel hi hentry
  exact ⟨done, k, later, h.of_agrees (p := .loop rest) hagrees (.inl (congrFun hcounter _)) rfl
    (by simp [VerifyAt.called])⟩

theorem atSchedule_eq (t : Timers) (id : AtId) (delay : Byte) (cb : AtCallback) :
    atSchedule t id delay cb =
      { t with
        callbackArray := Function.update t.callbackArray .idAt (some .atVerify)
        factorArray := Function.update t.factorArray .idAt atDelay
        counterArray := Function.update t.counterArray .idAt 0
        engaged := true
        current := Function.update t.current id 0
        max := Function.update t.max id delay
        callback := Function.update t.callback id (some cb) } :=
  cronEnable_eq _ _ _ _

theorem counting_call {a : Alarm} (h : Counting id d cb a done k later) {c : TimerCall}
    (hp : Proper (.call c)) (ho : OnOther id (.call c)) (hu : Undelayed id d a (.call c)) :
    Awaited id d cb (alarmStep id a (.call c)) := by
  have hstep : alarmStep id a (.call c) =
      { a with cpu := ⟨timerCall a.cpu.timers c, a.cpu.pc⟩ } := by
    unfold alarmStep
    split <;> first | rfl | contradiction
  rw [hstep]
  have hentry : a.cpu.timers.callback id ≠ none := by
    rw [h.entry]
    simp
  refine ⟨done, k, later, ?_⟩
  cases c with
  | schedule i delay cb =>
    have hi : id ≠ i := Ne.symm ho
    have hclear : a.cpu.timers.counterArray .idAt = 0 ∨ ¬ k < d.toNat := by
      refine or_iff_not_imp_right.mpr fun hk => hu ?_
      have hlt := not_not.mp hk
      have hcounter : (a.cpu.timers.counterArray .idAt).toNat < atDelay.toNat := h.counter
      have hticks := (h.elapsed hlt).2
      have hnext : atDelay.toNat * (k + 1) ≤ due d := Nat.mul_le_mul_left _ hlt
      rw [Nat.mul_succ] at hnext
      omega
    unfold timerCall
    dsimp only
    rw [atSchedule_eq]
    refine h.of_agrees ⟨rfl, ?_, ?_, Function.update_of_ne hi _ _, Function.update_of_ne hi _ _,
      Function.update_of_ne hi _ _⟩ ?_ rfl h.notCalled
    all_goals
      dsimp only
      rw [Function.update_self]
    · exact h.registered.symm
    · exact h.factor.symm
    · exact hclear.imp Eq.symm fun hk => ⟨rfl, hk⟩
  | postpone i =>
    exact h.of_agrees ⟨rfl, rfl, rfl, rfl, rfl, Function.update_of_ne (Ne.symm ho) _ _⟩ (.inl rfl)
      rfl h.notCalled
  | cancel i =>
    obtain ⟨hagrees, hcounter⟩ := agrees_cancel ho hentry
    exact h.of_agrees hagrees (.inl (congrFun hcounter _)) rfl h.notCalled
  | enable i factor callback =>
    have hi : CronId.idAt ≠ i := Ne.symm hp.1
    unfold timerCall
    dsimp only
    rw [cronEnable_eq]
    exact h.of_agrees
      ⟨rfl, Function.update_of_ne hi _ _, Function.update_of_ne hi _ _, rfl, rfl, rfl⟩
      (.inl (Function.update_of_ne hi _ _)) rfl h.notCalled
  | disable i =>
    have hi : CronId.idAt ≠ i := Ne.symm hp
    obtain ⟨engaged, he⟩ := cronDisable_eq a.cpu.timers i
    unfold timerCall
    dsimp only
    rw [he]
    exact h.of_agrees
      ⟨rfl, Function.update_of_ne hi _ _, Function.update_of_ne hi _ _, rfl, rfl, rfl⟩
      (.inl (Function.update_of_ne hi _ _)) rfl h.notCalled

/-! ### After the call -/

theorem timerCall_entry {t : Timers} (hnone : t.callback id = none) {c : TimerCall}
    (ho : OnOther id (.call c)) : (timerCall t c).callback id = none := by
  cases c with
  | schedule i delay cb =>
    exact ((congrFun (atSchedule_callback t i delay cb) id).trans
      (Function.update_of_ne (Ne.symm ho) _ _)).trans hnone
  | postpone i => exact hnone
  | cancel i =>
    exact ((congrFun (atCancel_callback t i) id).trans
      (Function.update_of_ne (Ne.symm ho) _ _)).trans hnone
  | enable i factor callback =>
    exact (congrFun (cronEnable_callback t i factor callback) id).trans hnone
  | disable i => exact (congrFun (cronDisable_callback t i) id).trans hnone

theorem cronPop_entry (t : Timers) : (cronPop t).1.callback = t.callback := by
  unfold cronPop
  rcases bufByteDrain t.queue with ⟨queue, _ | b⟩ <;> rfl

theorem rung_outside {a : Alarm} (h : Rung id d cb a) (hd : 1 ≤ d) (hpc : a.cpu.pc = .outside)
    (hready : Ready a.cpu.timers) : Rung id d cb (alarmStep id a .proceed) := by
  obtain ⟨⟨t, pc⟩, ticks, waiting, running, rung⟩ := a
  dsimp only at hpc hready
  subst hpc
  have hpast : 0 < due d := Nat.mul_pos (by decide) (show 0 < d.toNat from hd)
  have hcleared : (cronPop t).1.callback id = none := by
    rw [cronPop_entry]
    exact h.cleared.resolve_right (by simp [VerifyAt.called])
  have hstep : alarmStep id ⟨⟨t, .outside⟩, ticks, waiting, running, rung⟩ .proceed =
      if t.queue.contents.head? = some CronId.idAt.toByte then
        ⟨⟨(cronPop t).1, cronCalled t⟩, ticks, waiting.tail, waiting.headD 0, rung⟩
      else ⟨⟨(cronPop t).1, cronCalled t⟩, ticks, waiting, running, rung⟩ := rfl
  rw [hstep]
  split
  · -- a later tick, or one that nothing has been kept beside
    refine ⟨h.rung, h.past, fun s hs => h.waiting s (List.mem_of_mem_tail hs), fun hrun => ?_,
      .inl hcleared⟩
    have hwaiting := h.waiting
    dsimp only at hrun hwaiting
    cases waiting with
    | nil => exact absurd hrun (Nat.ne_of_lt hpast)
    | cons w ws => exact absurd hrun (Nat.ne_of_gt (hwaiting w List.mem_cons_self))
  · rename_i hhead
    have hcalled : cronCalled t = .outside := by
      cases hc : t.queue.contents with
      | nil =>
        unfold cronCalled
        rw [cronPop_nil hc]
        rfl
      | cons b rest =>
        refine cronCalled_other hready hc fun hb => hhead ?_
        rw [hc, hb]
        rfl
    rw [hcalled]
    exact ⟨h.rung, h.past, h.waiting, fun _ => List.not_mem_nil, .inl hcleared⟩

theorem rung_loop {a : Alarm} (h : Rung id d cb a) {rest : List AtId} (hpc : a.cpu.pc = .loop rest) :
    Rung id d cb (alarmStep id a .proceed) := by
  obtain ⟨⟨t, pc⟩, ticks, waiting, running, rung⟩ := a
  dsimp only at hpc
  subst hpc
  have hnone : t.callback id = none := h.cleared.resolve_right (by simp [VerifyAt.called])
  have hstep : alarmStep id ⟨⟨t, .loop rest⟩, ticks, waiting, running, rung⟩ .proceed =
      ⟨proceed ⟨t, .loop rest⟩, ticks, waiting, running, rung ++
        if (proceed ⟨t, .loop rest⟩).pc.called = some id then [(running, t.callback id)]
        else []⟩ := rfl
  rw [hstep]
  have hkept : ∀ {u : Timers} {p : VerifyAt}, u.callback id = none →
      (∀ i ∈ p.ahead, i ∈ rest) → p.called ≠ some id → proceed ⟨t, .loop rest⟩ = ⟨u, p⟩ →
      Rung id d cb ⟨proceed ⟨t, .loop rest⟩, ticks, waiting, running, rung ++
        if (proceed ⟨t, .loop rest⟩).pc.called = some id then [(running, t.callback id)]
        else []⟩ := by
    intro u p hentry hahead hcalled hp
    rw [hp, if_neg hcalled, List.append_nil]
    exact ⟨h.rung, h.past, h.waiting, fun hrun hmem => h.behind hrun (hahead id hmem), .inl hentry⟩
  cases rest with
  | nil =>
    exact hkept (u := t) (p := .outside) hnone (fun _ hi => hi) (by simp [VerifyAt.called]) rfl
  | cons i rest =>
    by_cases hfree : t.callback i = none
    · exact hkept (u := t) (p := .loop rest) hnone (fun _ hi => List.mem_cons_of_mem _ hi)
        (by simp [VerifyAt.called]) (proceed_free hfree)
    · have hi : i ≠ id := fun he => hfree (he ▸ hnone)
      refine hkept (u := { t with current := Function.update t.current i (t.current i + 1) }) hnone
        ?_ ?_ (proceed_taken hfree)
      · split <;> exact fun _ hi => List.mem_cons_of_mem _ hi
      · split
        · simpa [VerifyAt.called] using hi
        · simp [VerifyAt.called]

theorem rung_within {a : Alarm} (h : Rung id d cb a) {i : AtId} {rest : List AtId}
    (hpc : a.cpu.pc = .within i rest) : Rung id d cb (alarmStep id a .proceed) := by
  obtain ⟨⟨t, pc⟩, ticks, waiting, running, rung⟩ := a
  dsimp only at hpc
  subst hpc
  refine ⟨h.rung, h.past, h.waiting, h.behind, .inl ?_⟩
  change (atCancel t i).callback id = none
  rw [atCancel_callback]
  by_cases hi : id = i
  · rw [hi, Function.update_self]
  · rw [Function.update_of_ne hi]
    exact h.cleared.resolve_right fun he => hi (Option.some.inj he).symm

theorem rung_tick {a : Alarm} (h : Rung id d cb a) : Rung id d cb (alarmStep id a .tick) := by
  obtain ⟨⟨t, pc⟩, ticks, waiting, running, rung⟩ := a
  cases pc with
  | outside =>
    refine ⟨h.rung, Nat.le_succ_of_le h.past, fun s hs => ?_, h.behind, ?_⟩
    · rcases List.mem_append.mp hs with hold | hnew
      · exact h.waiting s hold
      · dsimp only at hnew
        split at hnew
        · rw [List.mem_singleton.mp hnew]
          exact Nat.lt_succ_of_le h.past
        · exact absurd hnew List.not_mem_nil
    · change (interruptFunction t).callback id = none ∨ _
      rw [interruptFunction_eq]
      exact h.cleared
  | loop rest => exact h
  | within i rest => exact h

theorem tick_inside {a : Alarm} (h : a.cpu.pc ≠ .outside) : alarmStep id a .tick = a := by
  obtain ⟨⟨t, pc⟩, ticks, waiting, running, rung⟩ := a
  cases pc with
  | outside => exact absurd rfl h
  | loop rest => rfl
  | within i rest => rfl

theorem rung_step {a : Alarm} (h : Rung id d cb a) (hd : 1 ≤ d) (hready : Ready a.cpu.timers)
    {e : AtEvent} (ho : OnOther id e) : Rung id d cb (alarmStep id a e) := by
  cases e with
  | tick => exact rung_tick h
  | proceed =>
    cases hpc : a.cpu.pc with
    | outside => exact rung_outside h hd hpc hready
    | loop rest => exact rung_loop h hpc
    | within i rest => exact rung_within h hpc
  | call c =>
    have hstep : alarmStep id a (.call c) =
        { a with cpu := ⟨timerCall a.cpu.timers c, a.cpu.pc⟩ } := by
      unfold alarmStep
      split <;> first | rfl | contradiction
    rw [hstep]
    exact ⟨h.rung, h.past, h.waiting, h.behind, h.cleared.imp_left fun hn => timerCall_entry hn ho⟩

/-! ### Whole runs -/

structure AlarmSound (id : AtId) (d : Byte) (cb : AtCallback) (a : Alarm) : Prop where
  ready : Ready a.cpu.timers
  once : a.cpu.pc.ahead.count id ≤ 1
  phase : Awaited id d cb a ∨ Rung id d cb a

theorem proceed_once {c : AtCpu} (h : c.pc.ahead.count id ≤ 1) :
    (proceed c).pc.ahead.count id ≤ 1 := by
  obtain ⟨t, pc⟩ := c
  cases pc with
  | outside =>
    change (cronCalled t).ahead.count id ≤ 1
    unfold cronCalled
    split
    · change AtId.all.count id ≤ 1
      cases id <;> decide
    · exact Nat.zero_le 1
  | loop rest =>
    cases rest with
    | nil => exact Nat.zero_le 1
    | cons i rest =>
      have hrest : rest.count id ≤ 1 :=
        ((List.sublist_cons_self i rest).count_le id).trans h
      by_cases hfree : t.callback i = none
      · rw [proceed_free hfree]
        exact hrest
      · rw [proceed_taken hfree]
        dsimp only
        split <;> exact hrest
  | within i rest => exact h

theorem AlarmSound.step {a : Alarm} (h : AlarmSound id d cb a) (hd : 1 ≤ d) {e : AtEvent}
    (hp : Proper e) (ho : OnOther id e) (hu : Undelayed id d a e) :
    AlarmSound id d cb (alarmStep id a e) := by
  refine ⟨?_, ?_, ?_⟩
  · rw [alarmStep_cpu]
    exact h.ready.step hp
  · rw [alarmStep_cpu]
    cases e with
    | tick =>
      unfold atStep
      dsimp only
      split <;> exact h.once
    | proceed => exact proceed_once h.once
    | call c => exact h.once
  · rcases h.phase with hawait | hrung
    · obtain ⟨done, k, later, hc⟩ := hawait
      cases e with
      | tick =>
        by_cases hpc : a.cpu.pc = .outside
        · refine .inl (counting_tick hc hpc h.ready (hu hpc ?_))
          rw [hc.entry]
          simp
        · rw [tick_inside hpc]
          exact h.phase
      | proceed =>
        cases hpc : a.cpu.pc with
        | outside => exact .inl (counting_outside hc hpc h.ready)
        | loop rest => exact counting_loop hc hpc (by simpa [hpc, VerifyAt.ahead] using h.once)
        | within i rest => exact .inl (counting_within hc hpc)
      | call c => exact .inl (counting_call hc hp ho hu)
    · exact .inr (rung_step hrung hd h.ready ho)

theorem alarmStart_sound {c : AtCpu} (hready : Ready c.timers) (hclear : Clear id c) (hd : 1 ≤ d) :
    AlarmSound id d cb (alarmStart c id d cb) := by
  obtain ⟨hqueue, hahead, hcalled⟩ := hclear
  have hnone : c.pc.ahead.count id = 0 := List.count_eq_zero.mpr hahead
  have hpositive : 0 < d.toNat := hd
  refine ⟨hready.call (c := .schedule id d cb) trivial, hnone.trans_le (Nat.zero_le 1),
    .inl ⟨0, 0, [], ?_⟩⟩
  have hstart : alarmStart c id d cb = ⟨⟨atSchedule c.timers id d cb, c.pc⟩, 0, [], 0, []⟩ := rfl
  rw [hstart, atSchedule_eq]
  refine ⟨?_, ?_, ?_, ?_, ?_, ?_, ?_, ⟨Nat.le_refl 0, Nat.zero_le _⟩, fun _ => ⟨rfl, ?_⟩,
    fun hzero => by omega, rfl, by simp, (List.count_eq_zero.mpr hqueue).symm,
    fun hmem => absurd hmem hahead, rfl, hcalled⟩
  all_goals
    dsimp only
    rw [Function.update_self]
  · decide
  · exact hd
  · rw [hnone]
    rfl
  · rfl

end Phases

/-- From power on, the function of an entry is called once, by the `verify` of
the tick that is due, in every run in which no tick of `at.c` is lost or left
from before and no other entry is scheduled between two of them. -/
theorem entry_punctual (ds es : List AtEvent) (id : AtId) (d : Byte) (cb : AtCallback)
    (hds : ∀ e ∈ ds, Proper e) (hes : ∀ e ∈ es, Proper e ∧ OnOther id e) (hd : 1 ≤ d)
    (hclear : Clear id (run atStep atPower ds))
    (h : Along (alarmStep id) (Undelayed id d) (alarmStart (run atStep atPower ds) id d cb) es) :
    Throughout (alarmStep id) (Punctual id d cb) (alarmStart (run atStep atPower ds) id d cb)
      es := by
  have hpower : Ready atPower.timers :=
    ⟨ringInit_valid (by decide), fun _ _ he => nomatch he⟩
  have hready : Ready (run atStep atPower ds).timers :=
    run_invariant (I := fun c : AtCpu => Ready c.timers) (fun _ _ hc he => hc.step he) hpower
      (along_of_mem atStep atPower hds)
  have hsound := throughout_of_along (I := AlarmSound id d cb)
    (fun _ _ hs hc => hs.step hd hc.2.1 hc.2.2 hc.1) (alarmStart_sound hready hclear hd)
    (h.and (along_of_mem _ _ hes))
  rw [throughout_iff_start] at hsound ⊢
  intro ps hps
  rcases (hsound ps hps).phase with ⟨done, k, later, hawait⟩ | hrung
  · exact hawait.punctual
  · exact hrung.punctual

/-- The menu is to be closed, and Pi to be booted, after the same tick. -/
def menuBesideBoot : List AtEvent :=
  .call (.schedule .boot bootHoldTime .releaseWire) :: List.replicate 200 AtEvent.tick ++
    List.replicate 5 AtEvent.proceed

theorem entry_punctual_of_menu :
    Throughout (alarmStep .menu) (Punctual .menu delayApply .stop)
      (alarmStart (run atStep atPower []) .menu delayApply .stop) menuBesideBoot :=
  entry_punctual [] menuBesideBoot .menu delayApply .stop (by decide) (by decide +kernel)
    (by decide) (by decide +kernel) (by decide +kernel)

/-- `INT3_vect` comes half a second after `menu.c` has scheduled. -/
def menuBeforeInt3 : List AtEvent :=
  List.replicate 100 AtEvent.tick ++
    .call (.schedule .spi confirmHoldTime .misconfirm) :: List.replicate 100 AtEvent.tick

/-- The tick that is due is none for `at.c`, which counts from the start again. -/
theorem entry_late :
    (∀ e ∈ menuBeforeInt3, Proper e ∧ OnOther .menu e) ∧ Clear .menu atPower ∧
      (run (alarmStep .menu) (alarmStart atPower .menu delayApply .stop) menuBeforeInt3).ticks =
        due delayApply ∧
      (run (alarmStep .menu) (alarmStart atPower .menu delayApply .stop) menuBeforeInt3).waiting =
        [] ∧
      ¬ Throughout (alarmStep .menu) (Punctual .menu delayApply .stop)
        (alarmStart atPower .menu delayApply .stop) menuBeforeInt3 := by
  have hrun : (∀ e ∈ menuBeforeInt3, Proper e ∧ OnOther .menu e) ∧ Clear .menu atPower ∧
      (run (alarmStep .menu) (alarmStart atPower .menu delayApply .stop) menuBeforeInt3).ticks =
        due delayApply ∧
      (run (alarmStep .menu) (alarmStart atPower .menu delayApply .stop) menuBeforeInt3).waiting =
        [] ∧
      ¬ Punctual .menu delayApply .stop
        (run (alarmStep .menu) (alarmStart atPower .menu delayApply .stop) menuBeforeInt3) := by
    decide +kernel
  obtain ⟨hothers, hclear, hticks, hwaiting, hlate⟩ := hrun
  exact ⟨hothers, hclear, hticks, hwaiting, fun h => hlate h.last⟩

end LedServer.Avr
