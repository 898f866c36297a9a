import LedServer.Machine
import LedServer.AvrDecode
import LedServer.AvrRingContents

set_option autoImplicit false

/-!
# The ticks of `cron.c`

A tick counts every entry that is registered and queues those that are due;
`cron_try` takes one off the queue and calls what is registered for it then.
-/
namespace LedServer.AvrRing

/-- A fill that meets the indices keeps nothing, else it adds to what is there. -/
theorem byteFill_mem {size : Byte} {r : Ring size} (h : r.Valid) {b x : Byte}
    (hx : x ∈ (ringByteFill r b).1.contents) : x ∈ r.contents ∨ x = b := by
  by_cases room : r.count < size.toNat
  · by_cases lost : 0 < r.start.toNat ∧ r.count + 1 = size.toNat
    · rw [byteFill_lost h lost.1 lost.2] at hx
      exact absurd hx List.not_mem_nil
    · rw [byteFill_contents h room lost] at hx
      exact (List.mem_append.mp hx).imp_right List.mem_singleton.mp
  · rw [byteFill_full h room] at hx
    exact .inl hx

theorem fillAll_mem {size : Byte} {r : Ring size} (h : r.Valid) {bytes : List Byte} {x : Byte}
    (hx : x ∈ (fillAll r bytes).contents) : x ∈ r.contents ∨ x ∈ bytes := by
  induction bytes generalizing r with
  | nil => exact .inl hx
  | cons b bytes ih =>
    rcases ih (byteFill_valid h b) hx with hold | hnew
    · rcases byteFill_mem h hold with hr | rfl
      · exact .inl hr
      · exact .inr List.mem_cons_self
    · exact .inr (List.mem_cons_of_mem b hnew)

end LedServer.AvrRing

namespace LedServer.Avr
open AvrRing Machine

/-! ### One tick -/

/-- The next tick puts the entry into the queue. -/
def Due (t : Timers) (i : CronId) : Prop :=
  t.callbackArray i ≠ none ∧ t.counterArray i + 1 ≥ t.factorArray i

instance (t : Timers) (i : CronId) : Decidable (Due t i) := inferInstanceAs (Decidable (_ ∧ _))

/-- The counter of an entry after a tick. -/
def ticked (t : Timers) (i : CronId) : Byte :=
  if t.callbackArray i = none then t.counterArray i
  else if t.counterArray i + 1 ≥ t.factorArray i then 0
  else t.counterArray i + 1

theorem interruptStep_eq (t : Timers) (i : CronId) :
    interruptStep t i =
      { t with
        counterArray := Function.update t.counterArray i (ticked t i)
        queue := if Due t i then (bufByteFill t.queue i.toByte).1 else t.queue } := by
  unfold interruptStep ticked
  split
  · rename_i hnone
    rw [if_pos hnone, if_neg (fun h : Due t i => h.1 hnone), Function.update_eq_self]
  · rename_i cb hcb
    have hreg : t.callbackArray i ≠ none := by
      rw [hcb]
      simp
    dsimp only
    rw [if_neg hreg]
    by_cases hle : t.counterArray i + 1 ≥ t.factorArray i
    · rw [if_pos hle, if_pos hle, if_pos (show Due t i from ⟨hreg, hle⟩)]
    · rw [if_neg hle, if_neg hle, if_neg (fun h : Due t i => hle h.2)]

theorem foldl_interruptStep {ids : List CronId} (h : ids.Nodup) (t : Timers) :
    ids.foldl interruptStep t =
      { t with
        counterArray := fun i => if i ∈ ids then ticked t i else t.counterArray i
        queue := fillAll t.queue ((ids.filter fun i => Due t i).map CronId.toByte) } := by
  induction ids generalizing t with
  | nil => simp
  | cons i ids ih =>
    obtain ⟨hnot, hnodup⟩ := List.nodup_cons.mp h
    -- the entries that follow see their own counters as before
    have hother : ∀ j ∈ ids, (interruptStep t i).counterArray j = t.counterArray j := by
      intro j hj
      rw [interruptStep_eq]
      exact Function.update_of_ne (ne_of_mem_of_not_mem hj hnot) _ _
    have hticked : ∀ j ∈ ids, ticked (interruptStep t i) j = ticked t j := by
      intro j hj
      unfold ticked
      rw [hother j hj, interruptStep_eq]
    have hdue : (ids.filter fun j => Due (interruptStep t i) j) = ids.filter fun j => Due t j := by
      refine List.filter_congr fun j hj => decide_eq_decide.mpr ?_
      unfold Due
      rw [hother j hj, interruptStep_eq]
    rw [List.foldl_cons, ih hnodup, hdue]
    have hcounter : (fun j => if j ∈ ids then ticked (interruptStep t i) j
        else (interruptStep t i).counterArray j) =
        fun j => if j ∈ i :: ids then ticked t j else t.counterArray j := by
      funext j
      by_cases hj : j ∈ ids
      · rw [if_pos hj, if_pos (List.mem_cons_of_mem i hj), hticked j hj]
      · rw [if_neg hj, interruptStep_eq]
        by_cases hji : j = i
        · subst hji
          rw [if_pos List.mem_cons_self]
          exact Function.update_self _ _ _
        · rw [if_neg fun hm => (List.mem_cons.mp hm).elim hji hj]
          exact Function.update_of_ne hji _ _
    rw [hcounter, interruptStep_eq]
    by_cases hi : Due t i
    · have hfilter : ((i :: ids).filter fun j => decide (Due t j)) =
          i :: ids.filter fun j => decide (Due t j) := List.filter_cons_of_pos (by simpa using hi)
      rw [if_pos hi, hfilter]
      rfl
    · have hfilter : ((i :: ids).filter fun j => decide (Due t j)) =
          ids.filter fun j => decide (Due t j) := List.filter_cons_of_neg (by simpa using hi)
      rw [if_neg hi, hfilter]

/-- What a tick queues, in the order of the ids. -/
def queued (t : Timers) : List Byte := (CronId.all.filter fun i => Due t i).map CronId.toByte

theorem interruptFunction_eq (t : Timers) :
    interruptFunction t =
      { t with counterArray := ticked t, queue := fillAll t.queue (queued t) } := by
  have hall : (fun i => if i ∈ CronId.all then ticked t i else t.counterArray i) = ticked t := by
    funext i
    exact if_pos (by cases i <;> decide)
  unfold interruptFunction queued
  rw [foldl_interruptStep (by decide), hall]

theorem toByte_inj {i j : CronId} (h : i.toByte = j.toByte) : i = j := by
  cases i <;> cases j <;> first | rfl | exact absurd h (by decide)

theorem queued_mem {t : Timers} {i : CronId} : i.toByte ∈ queued t ↔ Due t i := by
  unfold queued
  rw [List.mem_map]
  constructor
  · rintro ⟨j, hj, he⟩
    rw [← toByte_inj he]
    simpa using (List.mem_filter.mp hj).2
  · intro hdue
    refine ⟨i, List.mem_filter.mpr ⟨?_, by simpa using hdue⟩, rfl⟩
    cases i <;> decide

/-! ### `cron_try` -/

/-- `cron_try` up to the call: the entry it takes off the queue, and what is
registered for it. -/
def cronPop (t : Timers) : Timers × Option (CronId × CronCallback) :=
  match bufByteDrain t.queue with
  | (queue, none) => ({ t with queue := queue }, none)
  | (queue, some id) =>
    ({ t with queue := queue },
      (CronId.ofByte id).bind fun id => (t.callbackArray id).map fun callback => (id, callback))

theorem cronTry_eq (s : State) :
    cronTry s =
      match cronPop s.timers with
      | (t, none) => { s with timers := t }
      | (t, some (_, callback)) => runCronCallback { s with timers := t } callback := by
  unfold cronTry cronPop
  rcases bufByteDrain s.timers.queue with ⟨queue, _ | id⟩
  · rfl
  · dsimp only
    cases CronId.ofByte id with
    | none => rfl
    | some id =>
      dsimp only [Option.bind_some]
      cases s.timers.callbackArray id <;> rfl

theorem ofByte_toByte (i : CronId) : CronId.ofByte i.toByte = some i := by
  cases i <;> rfl

theorem toByte_of_ofByte {b : Byte} {i : CronId} (h : CronId.ofByte b = some i) :
    i.toByte = b := by
  unfold CronId.ofByte at h
  simpa using List.find?_some h

theorem cronPop_nil {t : Timers} (h : t.queue.contents = []) : cronPop t = (t, none) := by
  unfold cronPop bufByteDrain
  rw [byteDrain_empty h]

/-- The oldest byte goes, and stands for the entry that is called. -/
theorem cronPop_cons {t : Timers} (h : t.queue.Valid) {b : Byte} {rest : List Byte}
    (hc : t.queue.contents = b :: rest) :
    ∃ queue : Buf, queue.Valid ∧ queue.contents = rest ∧
      cronPop t = ({ t with queue := queue },
        (CronId.ofByte b).bind fun id => (t.callbackArray id).map fun callback => (id, callback)) := by
  obtain ⟨hb, hr⟩ := byteDrain_cons h hc
  refine ⟨(ringByteDrain t.queue).1, byteDrain_valid h, hr, ?_⟩
  have hdrain : bufByteDrain t.queue = ((ringByteDrain t.queue).1, some b) := by
    rw [← hb]
    rfl
  unfold cronPop
  rw [hdrain]

/-! ### The delay of an entry -/

/-- What anybody does with `cron.c`; a callback's own calls follow the
`cron_try` that has called it. -/
inductive CronDelayEvent where
  | tick
  | cronTry
  | enable (id : CronId) (factor : Byte) (callback : CronCallback)
  | disable (id : CronId)
deriving DecidableEq

/-- A call of the callback of `id`: the factor, and the ticks since the entry has
been enabled. -/
structure Invocation where
  id : CronId
  callback : CronCallback
  factor : Byte
  since : ℕ
deriving DecidableEq

structure Cron where
  timers : Timers
  since : CronId → ℕ
  calls : List Invocation

def cronDelayStep (t : Cron) : CronDelayEvent → Cron
  | .tick => { t with timers := interruptFunction t.timers, since := fun i => t.since i + 1 }
  | .cronTry =>
    { t with
      timers := (cronPop t.timers).1
      calls := t.calls ++ ((cronPop t.timers).2.toList.map fun call =>
        ⟨call.1, call.2, t.timers.factorArray call.1, t.since call.1⟩) }
  | .enable id factor callback =>
    { t with
      timers := cronEnable t.timers id factor callback
      since := Function.update t.since id 0 }
  | .disable id => { t with timers := cronDisable t.timers id }

def cronStart : Cron := ⟨timersInit, fun _ => 0, []⟩

/-- No callback is called before its factor of ticks has passed. -/
def Spaced (t : Cron) : Prop := ∀ call ∈ t.calls, call.factor.toNat ≤ call.since

instance (t : Cron) : Decidable (Spaced t) := inferInstanceAs (Decidable (∀ call ∈ t.calls, _))

/-- An entry is enabled while none of its earlier ticks waits in the queue. -/
def EnablesFresh (t : Cron) : CronDelayEvent → Prop
  | .enable id _ _ => id.toByte ∉ t.timers.queue.contents
  | _ => True

instance (t : Cron) (e : CronDelayEvent) : Decidable (EnablesFresh t e) := by
  cases e <;> unfold EnablesFresh <;> infer_instance

/-- The counter of an entry is all its ticks, or has come round; what waits for
its callback has been counted in full. -/
structure CronSpaced (t : Cron) : Prop where
  valid : t.timers.queue.Valid
  counted : ∀ i, t.timers.callbackArray i ≠ none →
    (t.timers.counterArray i).toNat = t.since i ∨ (t.timers.factorArray i).toNat ≤ t.since i
  below : ∀ i, t.timers.callbackArray i ≠ none →
    t.timers.counterArray i = 0 ∨ t.timers.counterArray i < t.timers.factorArray i
  waiting : ∀ i, t.timers.callbackArray i ≠ none → i.toByte ∈ t.timers.queue.contents →
    (t.timers.factorArray i).toNat ≤ t.since i
  spaced : Spaced t

theorem cronDisable_eq (t : Timers) (id : CronId) :
    ∃ engaged, cronDisable t id =
      { t with
        callbackArray := Function.update t.callbackArray id none
        factorArray := Function.update t.factorArray id 0
        counterArray := Function.update t.counterArray id 0
        engaged := engaged } := by
  unfold cronDisable
  dsimp only
  split
  · exact ⟨t.engaged, rfl⟩
  · exact ⟨false, rfl⟩

theorem cronSpaced_tick {t : Cron} (h : CronSpaced t) : CronSpaced (cronDelayStep t .tick) := by
  unfold cronDelayStep
  rw [interruptFunction_eq]
  have hdue : ∀ i, Due t.timers i → (t.timers.factorArray i).toNat ≤ t.since i + 1 := by
    rintro i ⟨hreg, hle⟩
    rcases h.counted i hreg with hc | hc
    · have hbelow := h.below i hreg
      bv_omega
    · omega
  refine ⟨fillAll_valid h.valid _, fun i hreg => ?_, fun i hreg => ?_, fun i hreg hmem => ?_,
    h.spaced⟩
  · dsimp only
    dsimp only at hreg
    unfold ticked
    rw [if_neg hreg]
    split
    · rename_i hle
      exact .inr (hdue i ⟨hreg, hle⟩)
    · rename_i hlt
      have hbelow := h.below i hreg
      rcases h.counted i hreg with hc | hc
      · left
        bv_omega
      · right
        omega
  · dsimp only
    dsimp only at hreg
    unfold ticked
    rw [if_neg hreg]
    split
    · exact .inl rfl
    · rename_i hlt
      exact .inr (BitVec.not_le.mp hlt)
  · dsimp only at hreg hmem ⊢
    rcases fillAll_mem h.valid hmem with hold | hnew
    · have hw := h.waiting i hreg hold
      omega
    · exact hdue i (queued_mem.mp hnew)

theorem cronSpaced_cronTry {t : Cron} (h : CronSpaced t) :
    CronSpaced (cronDelayStep t .cronTry) := by
  cases hc : t.timers.queue.contents with
  | nil =>
    have hsame : cronDelayStep t .cronTry = t := by
      unfold cronDelayStep
      rw [cronPop_nil hc]
      simp
    rw [hsame]
    exact h
  | cons b rest =>
    obtain ⟨queue, hvalid, hrest, hpop⟩ := cronPop_cons h.valid hc
    have hless : ∀ x ∈ queue.contents, x ∈ t.timers.queue.contents := by
      intro x hx
      rw [hc]
      rw [hrest] at hx
      exact List.mem_cons_of_mem b hx
    unfold cronDelayStep
    dsimp only
    rw [hpop]
    refine ⟨hvalid, h.counted, h.below, fun i hreg hmem => h.waiting i hreg (hless _ hmem),
      fun call hcall => ?_⟩
    rcases List.mem_append.mp hcall with hold | hnew
    · exact h.spaced call hold
    · obtain ⟨⟨i, callback⟩, hi, rfl⟩ := List.mem_map.mp hnew
      rw [Option.mem_toList] at hi
      obtain ⟨j, hj, hcb⟩ := Option.bind_eq_some_iff.mp hi
      obtain ⟨cb, hreg, he⟩ := Option.map_eq_some_iff.mp hcb
      obtain ⟨rfl, -⟩ := Prod.mk.inj he
      refine h.waiting j (by rw [hreg]; simp) ?_
      rw [hc, toByte_of_ofByte hj]
      exact List.mem_cons_self

theorem cronSpaced_enable {t : Cron} (h : CronSpaced t) {id : CronId} (factor : Byte)
    (callback : CronCallback) (hfresh : id.toByte ∉ t.timers.queue.contents) :
    CronSpaced (cronDelayStep t (.enable id factor callback)) := by
  unfold cronDelayStep
  dsimp only
  rw [cronEnable_eq]
  refine ⟨h.valid, fun i hreg => ?_, fun i hreg => ?_, fun i hreg hmem => ?_, h.spaced⟩
  all_goals
    dsimp only at hreg ⊢
    by_cases hi : i = id
  · subst hi
    rw [Function.update_self, Function.update_self]
    exact .inl rfl
  · rw [Function.update_of_ne hi] at hreg
    rw [Function.update_of_ne hi, Function.update_of_ne hi, Function.update_of_ne hi]
    exact h.counted i hreg
  · subst hi
    rw [Function.update_self]
    exact .inl rfl
  · rw [Function.update_of_ne hi] at hreg
    rw [Function.update_of_ne hi, Function.update_of_ne hi]
    exact h.below i hreg
  · subst hi
    exact absurd hmem hfresh
  · rw [Function.update_of_ne hi] at hreg
    rw [Function.update_of_ne hi, Function.update_of_ne hi]
    exact h.waiting i hreg hmem

theorem cronSpaced_disable {t : Cron} (h : CronSpaced t) (id : CronId) :
    CronSpaced (cronDelayStep t (.disable id)) := by
  obtain ⟨engaged, he⟩ := cronDisable_eq t.timers id
  unfold cronDelayStep
  dsimp only
  rw [he]
  have hother : ∀ i, Function.update t.timers.callbackArray id none i ≠ none → i ≠ id := by
    rintro i hreg rfl
    exact hreg (Function.update_self _ _ _)
  refine ⟨h.valid, fun i hreg => ?_, fun i hreg => ?_, fun i hreg hmem => ?_, h.spaced⟩
  all_goals
    dsimp only at hreg ⊢
    have hi := hother i hreg
    rw [Function.update_of_ne hi] at hreg
    rw [Function.update_of_ne hi]
  · rw [Function.update_of_ne hi]
    exact h.counted i hreg
  · rw [Function.update_of_ne hi]
    exact h.below i hreg
  · exact h.waiting i hreg hmem

theorem cronSpaced_step {t : Cron} (h : CronSpaced t) {e : CronDelayEvent} (hc : EnablesFresh t e) :
    CronSpaced (cronDelayStep t e) := by
  cases e with
  | tick => exact cronSpaced_tick h
  | cronTry => exact cronSpaced_cronTry h
  | enable id factor callback => exact cronSpaced_enable h factor callback hc
  | disable id => exact cronSpaced_disable h id

theorem cronStart_spaced : CronSpaced cronStart := by
  refine ⟨ringInit_valid (by decide), fun i hreg => absurd rfl hreg, fun i hreg => absurd rfl hreg,
    fun i hreg => absurd rfl hreg, fun call hcall => absurd hcall List.not_mem_nil⟩

/-- From power on, in every run in which no entry is enabled while one of its
earlier ticks waits in the queue, no callback is called before its factor of
ticks has passed since. -/
theorem callbacks_spaced (es : List CronDelayEvent)
    (h : Along cronDelayStep EnablesFresh cronStart es) :
    Throughout cronDelayStep Spaced cronStart es := by
  have hsound : Throughout cronDelayStep CronSpaced cronStart es :=
    throughout_of_along (fun _ _ hs hc => cronSpaced_step hs hc) cronStart_spaced h
  rw [throughout_iff_start] at hsound ⊢
  exact fun ds hd => (hsound ds hd).spaced

/-- The flush is enabled, and its ticks are taken as they come. -/
theorem callbacks_spaced_of_flush :
    Throughout cronDelayStep Spaced cronStart
      (.enable .idFlush slaveDelay .flushShiftDisplay :: List.replicate 5 CronDelayEvent.tick ++
        [CronDelayEvent.cronTry, .disable .idFlush,
          .enable .idFlush slaveDelay .flushShiftDisplay, .tick, .cronTry]) :=
  callbacks_spaced _ (by decide +kernel)

/-- `verify` of `at.c` and the flush are due on one tick; the function `verify`
calls sets the mode back and forth, which registers the flush anew. -/
def reconfigured : List CronDelayEvent :=
  [CronDelayEvent.enable .idAt 5 .atVerify, .enable .idFlush slaveDelay .flushShiftDisplay] ++
    List.replicate 5 CronDelayEvent.tick ++
    [CronDelayEvent.cronTry, .disable .idFlush, .enable .idFlush slaveDelay .flushShiftDisplay,
      .cronTry]

/-- The new registration is called at once, by the tick of the old one. -/
theorem callback_called_early :
    (run cronDelayStep cronStart reconfigured).calls.getLast? =
        some ⟨.idFlush, .flushShiftDisplay, slaveDelay, 0⟩ ∧
      ¬ Spaced (run cronDelayStep cronStart reconfigured) := by
  decide +kernel

end LedServer.Avr
