import LedServer.AvrDecode
import LedServer.Machine

set_option autoImplicit false

/-!
# When `heartbeat.c` reports a loss

Ticks of the timer and confirmations come in any order after `heartbeat_start`.
A history is kept newest event first.
-/
namespace LedServer.Avr
open Machine

/-- The part of the state that `heartbeat.c` works on. -/
structure Beat where
  heartbeat : Heartbeat
  timers : Timers

def State.beat (s : State) : Beat := ⟨s.heartbeat, s.timers⟩

/-- A call through one of the two pointers, with what the pointer holds. -/
inductive HeartbeatCall
  | report (cb : Option HeartbeatCallback)
  | provoke (cb : Option HeartbeatCallback)
deriving DecidableEq

def HeartbeatCall.pointer : HeartbeatCall → Option HeartbeatCallback
  | .report cb => cb
  | .provoke cb => cb

/-- `verify` up to the call it makes. -/
def Beat.verify (b : Beat) : Beat × Option HeartbeatCall :=
  let heartbeat := { b.heartbeat with currentMisses := b.heartbeat.currentMisses + 1 }
  if heartbeat.currentMisses ≥ heartbeat.maxMisses then
    (⟨heartbeat, cronDisable b.timers .idHeartbeat⟩, some (.report heartbeat.report))
  else if heartbeat.currentMisses > provokeLimit then
    (⟨heartbeat, b.timers⟩, some (.provoke heartbeat.provoke))
  else (⟨heartbeat, b.timers⟩, none)

theorem heartbeatVerify_eq (s : State) :
    heartbeatVerify s =
      let next := { s with
        heartbeat := s.beat.verify.1.heartbeat
        timers := s.beat.verify.1.timers }
      match s.beat.verify.2 with
      | none => next
      | some call => runHeartbeatCallback next call.pointer := by
  unfold heartbeatVerify Beat.verify State.beat
  dsimp only
  split_ifs <;> rfl

inductive HeartbeatEvent
  | tick
  | confirm
deriving DecidableEq

/-- What a step shows: the call made, and whether `cron.c` still has the entry. -/
structure Seen where
  call : Option HeartbeatCall
  registered : Bool
deriving DecidableEq

/-- A tick is the timer reaching the entry, so it does nothing once that is gone. -/
def heartbeatStep (b : Beat) (e : HeartbeatEvent) : Beat × Seen :=
  let next : Beat × Option HeartbeatCall :=
    match e with
    | .tick => if b.timers.callbackArray .idHeartbeat = none then (b, none) else b.verify
    | .confirm => ({ b with heartbeat := heartbeatConfirm b.heartbeat }, none)
  (next.1, ⟨next.2, (next.1.timers.callbackArray .idHeartbeat).isSome⟩)

/-! ### What is asked for -/

/-- The consecutive ticks at the end of a history. -/
def misses : List HeartbeatEvent → ℕ
  | [] => 0
  | .tick :: past => misses past + 1
  | .confirm :: _ => 0

/-- `max` misses are allowed, one more has been seen. -/
def reported (max : Byte) : List HeartbeatEvent → Bool
  | [] => false
  | e :: past => reported max past || misses (e :: past) == max.toNat + 1

def expected (max : Byte) (reportCb provokeCb : HeartbeatCallback) (past : List HeartbeatEvent) :
    HeartbeatEvent → Seen
  | .tick =>
    if reported max past then ⟨none, false⟩
    else if misses past + 1 = max.toNat + 1 then ⟨some (.report reportCb), false⟩
    else if 2 ≤ misses past + 1 then ⟨some (.provoke provokeCb), true⟩
    else ⟨none, true⟩
  | .confirm => ⟨none, !reported max past⟩

def allowed (max : Byte) (reportCb provokeCb : HeartbeatCallback) (past : List HeartbeatEvent)
    (e : HeartbeatEvent) : List HeartbeatEvent × Seen :=
  (e :: past, expected max reportCb provokeCb past e)

/-! ### One step -/

/-- The state after a history that `verify` has counted as it should. -/
structure Counted (max : Byte) (reportCb provokeCb : HeartbeatCallback) (b : Beat)
    (past : List HeartbeatEvent) : Prop where
  limit : b.heartbeat.maxMisses = provokeLimit + max
  report : b.heartbeat.report = some reportCb
  provoke : b.heartbeat.provoke = some provokeCb
  entry : b.timers.callbackArray .idHeartbeat =
    if reported max past then none else some .heartbeatVerify
  count : reported max past = false →
    b.heartbeat.currentMisses.toNat = misses past ∧ misses past ≤ max.toNat
  fresh : max = 255 → reported max past = false ∧ misses past = 0

variable {max : Byte} {reportCb provokeCb : HeartbeatCallback} {b : Beat}
  {past : List HeartbeatEvent}

theorem heartbeatStart_counted (s : State) (delay : Byte) :
    Counted max reportCb provokeCb (heartbeatStart s delay max reportCb provokeCb).beat [] where
  limit := rfl
  report := rfl
  provoke := rfl
  entry := cronEnable_self _ _ _ _
  count := fun _ => ⟨rfl, Nat.zero_le _⟩
  fresh := fun _ => ⟨rfl, rfl⟩

theorem reported_confirm (max : Byte) (past : List HeartbeatEvent) :
    reported max (.confirm :: past) = reported max past := by
  simp [reported, misses]

theorem reported_tick (max : Byte) (past : List HeartbeatEvent) :
    reported max (.tick :: past) = (reported max past || misses past + 1 == max.toNat + 1) := rfl

theorem Counted.confirm (h : Counted max reportCb provokeCb b past) :
    (heartbeatStep b .confirm).2 = expected max reportCb provokeCb past .confirm ∧
      Counted max reportCb provokeCb (heartbeatStep b .confirm).1 (.confirm :: past) := by
  have hreported := reported_confirm max past
  constructor
  · simp only [heartbeatStep, expected, h.entry]
    cases reported max past <;> rfl
  · refine ⟨h.limit, h.report, h.provoke, ?_, fun _ => ⟨rfl, Nat.zero_le _⟩, fun hmax => ?_⟩
    · rw [hreported]
      exact h.entry
    · rw [hreported]
      exact ⟨(h.fresh hmax).1, rfl⟩

theorem heartbeatStep_gone (h : b.timers.callbackArray .idHeartbeat = none) :
    heartbeatStep b .tick = (b, ⟨none, false⟩) := by
  simp only [heartbeatStep, h, if_true, Option.isSome_none]

theorem heartbeatStep_verify (h : b.timers.callbackArray .idHeartbeat = some .heartbeatVerify) :
    heartbeatStep b .tick = (b.verify.1,
      ⟨b.verify.2, (b.verify.1.timers.callbackArray .idHeartbeat).isSome⟩) := by
  simp only [heartbeatStep, h, reduceCtorEq, if_false]

/-- One miss more, without a call. -/
def Beat.missed (b : Beat) : Beat :=
  { b with heartbeat := { b.heartbeat with currentMisses := b.heartbeat.currentMisses + 1 } }

theorem verify_over (h : b.heartbeat.currentMisses + 1 ≥ b.heartbeat.maxMisses) :
    b.verify = (⟨b.missed.heartbeat, cronDisable b.timers .idHeartbeat⟩,
      some (.report b.heartbeat.report)) := if_pos h

theorem verify_under (h : ¬ b.heartbeat.currentMisses + 1 ≥ b.heartbeat.maxMisses) :
    b.verify = (b.missed, if b.heartbeat.currentMisses + 1 > provokeLimit
      then some (.provoke b.heartbeat.provoke) else none) := by
  refine (if_neg h).trans ?_
  split_ifs <;> rfl

/-- Once reported there is no entry for a tick to reach. -/
theorem Counted.tick_late (h : Counted max reportCb provokeCb b past)
    (late : reported max past = true) :
    (heartbeatStep b .tick).2 = expected max reportCb provokeCb past .tick ∧
      Counted max reportCb provokeCb (heartbeatStep b .tick).1 (.tick :: past) := by
  have hgone : b.timers.callbackArray .idHeartbeat = none := by rw [h.entry, if_pos late]
  have hreported : reported max (.tick :: past) = true := by rw [reported_tick, late, Bool.true_or]
  rw [heartbeatStep_gone hgone]
  refine ⟨by rw [expected, if_pos late], h.limit, h.report, h.provoke, ?_, ?_, ?_⟩
  · rw [hgone, if_pos hreported]
  · intro hnot
    rw [hreported] at hnot
    cases hnot
  · intro hmax
    rw [(h.fresh hmax).1] at late
    cases late

/-- Below 255 the limit is one above `max`, so the counter meets it in time. -/
theorem Counted.tick_counted (h : Counted max reportCb provokeCb b past) (hmax : max ≠ 255)
    (early : reported max past = false) :
    (heartbeatStep b .tick).2 = expected max reportCb provokeCb past .tick ∧
      Counted max reportCb provokeCb (heartbeatStep b .tick).1 (.tick :: past) := by
  obtain ⟨hcount, hle⟩ := h.count early
  have hnot : ¬ reported max past = true := by rw [early]; exact Bool.false_ne_true
  have hentry : b.timers.callbackArray .idHeartbeat = some .heartbeatVerify := by
    rw [h.entry, if_neg hnot]
  have hlimit : b.heartbeat.maxMisses.toNat = max.toNat + 1 := by
    rw [h.limit, provokeLimit]
    bv_omega
  have hnext : (b.heartbeat.currentMisses + 1).toNat = misses past + 1 := by bv_omega
  have hreported : reported max (.tick :: past) = (misses past + 1 == max.toNat + 1) := by
    rw [reported_tick, early, Bool.false_or]
  rw [heartbeatStep_verify hentry]
  by_cases hlast : misses past = max.toNat
  · -- the last miss allowed was the one before
    have hyes : reported max (.tick :: past) = true := by rw [hreported, hlast, beq_self_eq_true]
    rw [verify_over (by bv_omega), h.report, cronDisable_self]
    refine ⟨?_, h.limit, h.report, h.provoke, ?_, ?_, fun h255 => absurd h255 hmax⟩
    · rw [expected, if_neg hnot, if_pos (by omega)]
      rfl
    · rw [cronDisable_self, if_pos hyes]
    · intro hno
      rw [hyes] at hno
      cases hno
  · have hno : reported max (.tick :: past) = false := by
      rw [hreported]
      exact beq_eq_false_iff_ne.mpr (by omega)
    have hsecond : b.heartbeat.currentMisses + 1 > provokeLimit ↔ 2 ≤ misses past + 1 := by
      rw [provokeLimit]
      constructor <;> intro h2 <;> bv_omega
    have hexpected : expected max reportCb provokeCb past .tick =
        if 2 ≤ misses past + 1 then ⟨some (.provoke provokeCb), true⟩ else ⟨none, true⟩ := by
      rw [expected, if_neg hnot, if_neg (by omega)]
    rw [verify_under (by bv_omega), h.provoke, hexpected]
    refine ⟨?_, h.limit, h.report, h.provoke, ?_, fun _ => ⟨hnext, ?_⟩,
      fun h255 => absurd h255 hmax⟩
    · simp only [hsecond, Beat.missed, hentry, Option.isSome_some]
      split_ifs <;> rfl
    · rw [hno]
      exact hentry
    · rw [misses]
      omega

/-- With 255 misses allowed the limit is zero, and the first tick reports. -/
theorem Counted.tick_wrapped (h : Counted max reportCb provokeCb b past) (hmax : max = 255) :
    (heartbeatStep b .tick).2 ≠ expected max reportCb provokeCb past .tick := by
  obtain ⟨early, hzero⟩ := h.fresh hmax
  have hnot : ¬ reported max past = true := by rw [early]; exact Bool.false_ne_true
  have hentry : b.timers.callbackArray .idHeartbeat = some .heartbeatVerify := by
    rw [h.entry, if_neg hnot]
  have hlimit : b.heartbeat.maxMisses = 0 := by
    rw [h.limit, hmax]
    rfl
  have hover : b.heartbeat.currentMisses + 1 ≥ b.heartbeat.maxMisses := by
    rw [hlimit]
    bv_omega
  have hsilent : expected max reportCb provokeCb past .tick = ⟨none, true⟩ := by
    rw [expected, if_neg hnot, hzero, hmax]
    rfl
  rw [heartbeatStep_verify hentry, verify_over hover, hsilent]
  exact fun heq => Option.some_ne_none _ (congrArg Seen.call heq)

theorem heartbeatStep_agree (b : Beat) (past : List HeartbeatEvent) (e : HeartbeatEvent)
    (h : Counted max reportCb provokeCb b past) (hmax : e = .tick → max ≠ 255) :
    (heartbeatStep b e).2 = (allowed max reportCb provokeCb past e).2 ∧
      Counted max reportCb provokeCb (heartbeatStep b e).1
        (allowed max reportCb provokeCb past e).1 := by
  cases e with
  | tick =>
    cases hreported : reported max past with
    | true => exact h.tick_late hreported
    | false => exact h.tick_counted (hmax rfl) hreported
  | confirm => exact h.confirm

theorem heartbeatStep_differ (b : Beat) (past : List HeartbeatEvent) (e : HeartbeatEvent)
    (h : Counted max reportCb provokeCb b past) (hmax : ¬ (e = .tick → max ≠ 255)) :
    (heartbeatStep b e).2 ≠ (allowed max reportCb provokeCb past e).2 := by
  obtain ⟨rfl, h255⟩ := Classical.not_imp.mp hmax
  exact h.tick_wrapped (not_not.mp h255)

/-! ### Runs -/

/-- After `heartbeat_start` with any arguments, over every sequence of ticks and
confirmations: `report` and `provoke` are called where they should be and the
entry is there until the report, unless 255 misses are allowed and a tick comes. -/
theorem report_after_max (s : State) (delay max : Byte) (reportCb provokeCb : HeartbeatCallback)
    (es : List HeartbeatEvent) :
    observe heartbeatStep (heartbeatStart s delay max reportCb provokeCb).beat es =
        observe (allowed max reportCb provokeCb) [] es ↔
      max ≠ 255 ∨ HeartbeatEvent.tick ∉ es := by
  rw [observe_eq_iff heartbeatStep_agree heartbeatStep_differ es (heartbeatStart_counted s delay),
    along_iff_mem]
  constructor
  · intro h
    by_cases hmem : HeartbeatEvent.tick ∈ es
    · exact .inl (h _ hmem rfl)
    · exact .inr hmem
  · rintro (hmax | hmem) e he rfl
    · exact hmax
    · exact absurd he hmem

/-- The first tick of a link that may miss 255 of them. -/
theorem report_at_once :
    observe heartbeatStep (heartbeatStart powerUp 50 255 .switchToWatch .spiInterruptStart).beat
        [.tick] = [⟨some (.report (some .switchToWatch)), false⟩] ∧
      observe heartbeatStep (heartbeatStart powerUp 50 255 .switchToWatch .spiInterruptStart).beat
        [.tick] ≠ observe (allowed 255 .switchToWatch .spiInterruptStart) [] [.tick] := by
  decide +kernel

end LedServer.Avr
