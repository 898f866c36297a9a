import LedServer.Machine
import LedServer.AvrDecode

set_option autoImplicit false

/-!
# `INT3_vect` between the statements of `at.c` and `cron.c`

The handler calls `at_schedule` itself. What the main loop still executes of the
call it was in has been decided before.
-/
namespace LedServer.Avr
open AvrRing Machine

/-! ### The functions statement by statement -/

inductive SchedulePc where
  | current | max | callback
deriving DecidableEq

/-- The loop of `empty` carries the entries it has yet to look at. -/
inductive CancelPc where
  | clear
  | empty (ids : List AtId)
deriving DecidableEq

/-- `verify` of `at.c`; from `call` on the callback runs. -/
inductive VerifyPc where
  | test (ids : List AtId)
  | count (id : AtId) (rest : List AtId)
  | call (id : AtId) (rest : List AtId)
  | clear (id : AtId) (rest : List AtId)
  | empty (ids rest : List AtId)
deriving DecidableEq

/-- The loop of `is_required`, then `engage_timer`. -/
inductive EnablePc where
  | callback | factor | counter
  | required (ids : List CronId)
  | interrupt | compare | start
deriving DecidableEq

/-- The loop of `is_required`, then `disengage_timer`. -/
inductive DisablePc where
  | callback | factor | counter
  | required (ids : List CronId)
  | interrupt | stop
deriving DecidableEq

inductive CronTryPc where
  | drain
  | call (id : CronId)
  | within
deriving DecidableEq

inductive CronInterruptPc where
  | test (ids : List CronId)
  | count (id : CronId) (rest : List CronId)
  | fill (id : CronId) (rest : List CronId)
deriving DecidableEq

/-- A call under way and its next statement. -/
inductive Activation where
  | atSchedule (id : AtId) (delay : Byte) (cb : AtCallback) (pc : SchedulePc)
  | atPostpone (id : AtId)
  | atCancel (id : AtId) (pc : CancelPc)
  | verify (pc : VerifyPc)
  | cronEnable (id : CronId) (factor : Byte) (callback : CronCallback) (pc : EnablePc)
  | cronDisable (id : CronId) (pc : DisablePc)
  | cronTry (pc : CronTryPc)
  | interruptFunction (pc : CronInterruptPc)
deriving DecidableEq

/-- The timer is engaged when its interrupt is enabled and it counts, which is
what `engaged` stands for here. -/
structure CronState where
  timers : Timers
  interrupts : Bool

namespace CronState

def setCurrent (s : CronState) (id : AtId) (b : Byte) : CronState :=
  { s with timers := { s.timers with current := Function.update s.timers.current id b } }

def setMax (s : CronState) (id : AtId) (b : Byte) : CronState :=
  { s with timers := { s.timers with max := Function.update s.timers.max id b } }

def setCallback (s : CronState) (id : AtId) (cb : Option AtCallback) : CronState :=
  { s with timers := { s.timers with callback := Function.update s.timers.callback id cb } }

def setCron (s : CronState) (id : CronId) (cb : Option CronCallback) : CronState :=
  { s with
    timers := { s.timers with callbackArray := Function.update s.timers.callbackArray id cb } }

def setFactor (s : CronState) (id : CronId) (b : Byte) : CronState :=
  { s with timers := { s.timers with factorArray := Function.update s.timers.factorArray id b } }

def setCounter (s : CronState) (id : CronId) (b : Byte) : CronState :=
  { s with timers := { s.timers with counterArray := Function.update s.timers.counterArray id b } }

def setEngaged (s : CronState) (on : Bool) : CronState :=
  { s with timers := { s.timers with engaged := on } }

end CronState

/-- A statement, and what takes the place of the call on top of the stack. -/
def execute (s : CronState) : Activation → CronState × List Activation
  | .atSchedule id delay cb .current => (s.setCurrent id 0, [.atSchedule id delay cb .max])
  | .atSchedule id delay cb .max => (s.setMax id delay, [.atSchedule id delay cb .callback])
  | .atSchedule id _ cb .callback =>
    (s.setCallback id (some cb), [.cronEnable .idAt atDelay .atVerify .callback])
  | .atPostpone id => (s.setCurrent id 0, [])
  | .atCancel id .clear => (s.setCallback id none, [.atCancel id (.empty AtId.all)])
  | .atCancel _ (.empty []) => (s, [.cronDisable .idAt .callback])
  | .atCancel id (.empty (i :: ids)) =>
    if s.timers.callback i = none then (s, [.atCancel id (.empty ids)]) else (s, [])
  | .verify (.test []) => (s, [])
  | .verify (.test (id :: rest)) =>
    if s.timers.callback id = none then (s, [.verify (.test rest)])
    else (s, [.verify (.count id rest)])
  | .verify (.count id rest) =>
    let s := s.setCurrent id (s.timers.current id + 1)
    if s.timers.current id ≥ s.timers.max id then (s, [.verify (.call id rest)])
    else (s, [.verify (.test rest)])
  | .verify (.call id rest) => (s, [.verify (.clear id rest)])
  | .verify (.clear id rest) => (s.setCallback id none, [.verify (.empty AtId.all rest)])
  | .verify (.empty [] rest) => (s, [.cronDisable .idAt .callback, .verify (.test rest)])
  | .verify (.empty (i :: ids) rest) =>
    if s.timers.callback i = none then (s, [.verify (.empty ids rest)])
    else (s, [.verify (.test rest)])
  | .cronEnable id factor cb .callback =>
    (s.setCron id (some cb), [.cronEnable id factor cb .factor])
  | .cronEnable id factor cb .factor =>
    (s.setFactor id factor, [.cronEnable id factor cb .counter])
  | .cronEnable id factor cb .counter =>
    (s.setCounter id 0, [.cronEnable id factor cb (.required CronId.all)])
  | .cronEnable _ _ _ (.required []) => (s, [])
  | .cronEnable id factor cb (.required (i :: ids)) =>
    if s.timers.callbackArray i = none then (s, [.cronEnable id factor cb (.required ids)])
    else (s, [.cronEnable id factor cb .interrupt])
  | .cronEnable id factor cb .interrupt =>
    ({ s with interrupts := true }, [.cronEnable id factor cb .compare])
  | .cronEnable id factor cb .compare => (s, [.cronEnable id factor cb .start])
  | .cronEnable _ _ _ .start => (s.setEngaged true, [])
  | .cronDisable id .callback => (s.setCron id none, [.cronDisable id .factor])
  | .cronDisable id .factor => (s.setFactor id 0, [.cronDisable id .counter])
  | .cronDisable id .counter => (s.setCounter id 0, [.cronDisable id (.required CronId.all)])
  | .cronDisable id (.required []) => (s, [.cronDisable id .interrupt])
  | .cronDisable id (.required (i :: ids)) =>
    if s.timers.callbackArray i = none then (s, [.cronDisable id (.required ids)]) else (s, [])
  | .cronDisable id .interrupt => ({ s with interrupts := false }, [.cronDisable id .stop])
  | .cronDisable _ .stop => (s.setEngaged false, [])
  | .cronTry .drain =>
    let drained := bufByteDrain s.timers.queue
    let s := { s with timers := { s.timers with queue := drained.1 } }
    match drained.2.bind CronId.ofByte with
    | none => (s, [])
    | some id => if s.timers.callbackArray id = none then (s, []) else (s, [.cronTry (.call id)])
  | .cronTry (.call id) =>
    if s.timers.callbackArray id = some .atVerify then
      (s, [.verify (.test AtId.all), .cronTry .within])
    else (s, [.cronTry .within])
  | .cronTry .within => (s, [])
  | .interruptFunction (.test []) => (s, [])
  | .interruptFunction (.test (id :: rest)) =>
    if s.timers.callbackArray id = none then (s, [.interruptFunction (.test rest)])
    else (s, [.interruptFunction (.count id rest)])
  | .interruptFunction (.count id rest) =>
    let s := s.setCounter id (s.timers.counterArray id + 1)
    if s.timers.counterArray id ≥ s.timers.factorArray id then
      (s.setCounter id 0, [.interruptFunction (.fill id rest)])
    else (s, [.interruptFunction (.test rest)])
  | .interruptFunction (.fill id rest) =>
    ({ s with timers := { s.timers with queue := (bufByteFill s.timers.queue id.toByte).1 } },
      [.interruptFunction (.test rest)])

structure CronCpu where
  state : CronState
  stack : List Activation

def cronStatement (t : CronCpu) : CronCpu :=
  match t.stack with
  | [] => t
  | a :: rest => ⟨(execute t.state a).1, (execute t.state a).2 ++ rest⟩

inductive CronCall where
  | atSchedule (id : AtId) (delay : Byte) (cb : AtCallback)
  | atPostpone (id : AtId)
  | atCancel (id : AtId)
  | cronEnable (id : CronId) (factor : Byte) (callback : CronCallback)
  | cronDisable (id : CronId)
  | cronTry
  | interruptFunction
deriving DecidableEq

/-- A call from outside the two files. `CRON_ID_AT` is used by `at.c` only. -/
def CronCall.begin : CronCall → List Activation
  | atSchedule id delay cb => [.atSchedule id delay cb .current]
  | atPostpone id => [.atPostpone id]
  | atCancel id => [.atCancel id .clear]
  | cronEnable id factor cb => if id = .idAt then [] else [.cronEnable id factor cb .callback]
  | cronDisable id => if id = .idAt then [] else [.cronDisable id .callback]
  | cronTry => [.cronTry .drain]
  | interruptFunction => [.interruptFunction (.test CronId.all)]

/-- The main loop may call when it is in none of the functions, or in a callback
that one of them has invoked. -/
def Callable : List Activation → Bool
  | [] => true
  | .verify (.call _ _) :: _ => true
  | .cronTry .within :: _ => true
  | _ => false

inductive CronEvent where
  | call (c : CronCall)
  | statement
  | int3
deriving DecidableEq

/-- What the handler does to the timers. -/
def int3Cron (s : CronState) : CronState where
  timers := atSchedule s.timers .spi confirmHoldTime .misconfirm
  interrupts := true

def cronStep (t : CronCpu) : CronEvent → CronCpu
  | .call c => if Callable t.stack then { t with stack := c.begin ++ t.stack } else t
  | .statement => cronStatement t
  | .int3 => { t with state := int3Cron t.state }

def cronPower : CronCpu := ⟨⟨timersInit, false⟩, []⟩

theorem int3Cron_timers (s : CronState) (v : State) (h : v.timers = s.timers) :
    (int3Cron s).timers = (int3Vect v).timers := by
  unfold int3Cron int3Vect
  rw [h]

/-! ### Without an interrupt -/

/-- Some statements later, with no call in between. -/
def Later (t t' : CronCpu) : Prop := ∃ n, run cronStep t (List.replicate n .statement) = t'

theorem Later.refl (t : CronCpu) : Later t t := ⟨0, rfl⟩

theorem Later.step {t t' : CronCpu} (h : Later (cronStatement t) t') : Later t t' := by
  obtain ⟨n, hn⟩ := h
  exact ⟨n + 1, hn⟩

theorem Later.trans {t₁ t₂ t₃ : CronCpu} (h : Later t₁ t₂) (h' : Later t₂ t₃) : Later t₁ t₃ := by
  obtain ⟨n, rfl⟩ := h
  obtain ⟨m, rfl⟩ := h'
  exact ⟨n + m, by rw [List.replicate_add, run_append]⟩

theorem enable_required (s : CronState) (id : CronId) (factor : Byte) (cb : CronCallback)
    (rest : List Activation) (ids : List CronId) (h : ∃ i ∈ ids, s.timers.callbackArray i ≠ none) :
    Later ⟨s, .cronEnable id factor cb (.required ids) :: rest⟩
      ⟨s, .cronEnable id factor cb .interrupt :: rest⟩ := by
  induction ids with
  | nil => exact absurd h (by simp)
  | cons i ids ih =>
    apply Later.step
    unfold cronStatement execute
    dsimp only
    by_cases hi : s.timers.callbackArray i = none
    · rw [if_pos hi]
      refine ih ?_
      obtain ⟨j, hj, hne⟩ := h
      rcases List.mem_cons.mp hj with rfl | hj
      · exact absurd hi hne
      · exact ⟨j, hj, hne⟩
    · rw [if_neg hi]
      exact .refl _

theorem disable_required (s : CronState) (id : CronId) (rest : List Activation)
    (ids : List CronId) : Later ⟨s, .cronDisable id (.required ids) :: rest⟩
      ⟨s, (if ∃ i ∈ ids, s.timers.callbackArray i ≠ none then []
        else [.cronDisable id .interrupt]) ++ rest⟩ := by
  induction ids with
  | nil =>
    apply Later.step
    rw [if_neg (by simp)]
    exact .refl _
  | cons i ids ih =>
    apply Later.step
    unfold cronStatement execute
    dsimp only
    by_cases hi : s.timers.callbackArray i = none
    · rw [if_pos hi]
      have hsame : (∃ j ∈ i :: ids, s.timers.callbackArray j ≠ none) ↔
          ∃ j ∈ ids, s.timers.callbackArray j ≠ none := by simp [hi]
      simp only [hsame]
      exact ih
    · rw [if_neg hi, if_pos ⟨i, List.mem_cons_self, hi⟩]
      exact .refl _

theorem enable_uninterrupted (s : CronState) (id : CronId) (factor : Byte) (cb : CronCallback)
    (rest : List Activation) : Later ⟨s, .cronEnable id factor cb .callback :: rest⟩
      ⟨⟨cronEnable s.timers id factor cb, true⟩, rest⟩ := by
  apply Later.step
  apply Later.step
  apply Later.step
  let s₁ := ((s.setCron id (some cb)).setFactor id factor).setCounter id 0
  have hset : s₁.timers.callbackArray id ≠ none := by
    change Function.update s.timers.callbackArray id (some cb) id ≠ none
    rw [Function.update_self]
    simp
  have hrequired : isRequired s₁.timers = true := (isRequired_iff _).mpr ⟨id, hset⟩
  have hdone : cronEnable s.timers id factor cb = { s₁.timers with engaged := true } :=
    if_pos hrequired
  rw [hdone]
  refine (enable_required s₁ id factor cb rest CronId.all ⟨id, by cases id <;> decide, hset⟩).trans
    ?_
  apply Later.step
  apply Later.step
  apply Later.step
  exact .refl _

theorem disable_uninterrupted (s : CronState) (id : CronId) (rest : List Activation) :
    Later ⟨s, .cronDisable id .callback :: rest⟩
      ⟨⟨cronDisable s.timers id,
        if isRequired (cronDisable s.timers id) then s.interrupts else false⟩, rest⟩ := by
  apply Later.step
  apply Later.step
  apply Later.step
  let s₁ := ((s.setCron id none).setFactor id 0).setCounter id 0
  refine (disable_required s₁ id rest CronId.all).trans ?_
  have hall : (∃ i ∈ CronId.all, s₁.timers.callbackArray i ≠ none) ↔
      isRequired s₁.timers = true := by
    rw [isRequired_iff]
    constructor
    · rintro ⟨i, -, hi⟩
      exact ⟨i, hi⟩
    · rintro ⟨i, hi⟩
      exact ⟨i, by cases i <;> decide, hi⟩
  by_cases hrequired : isRequired s₁.timers = true
  · have hdone : cronDisable s.timers id = s₁.timers := if_pos hrequired
    rw [if_pos (hall.mpr hrequired), hdone, if_pos hrequired]
    exact .refl _
  · have hdone : cronDisable s.timers id = { s₁.timers with engaged := false } := if_neg hrequired
    have hsame : ¬ isRequired { s₁.timers with engaged := false } = true := hrequired
    rw [if_neg (fun h => hrequired (hall.mp h)), hdone, if_neg hsame]
    apply Later.step
    apply Later.step
    exact .refl _

theorem schedule_uninterrupted (s : CronState) (id : AtId) (delay : Byte) (cb : AtCallback)
    (rest : List Activation) : Later ⟨s, .atSchedule id delay cb .current :: rest⟩
      ⟨⟨atSchedule s.timers id delay cb, true⟩, rest⟩ := by
  apply Later.step
  apply Later.step
  apply Later.step
  exact enable_uninterrupted (((s.setCurrent id 0).setMax id delay).setCallback id (some cb))
    .idAt atDelay .atVerify rest

theorem cancel_empty (s : CronState) (id : AtId) (rest : List Activation) (ids : List AtId) :
    Later ⟨s, .atCancel id (.empty ids) :: rest⟩
      ⟨s, (if ∀ i ∈ ids, s.timers.callback i = none then [.cronDisable .idAt .callback]
        else []) ++ rest⟩ := by
  induction ids with
  | nil =>
    apply Later.step
    rw [if_pos (by simp)]
    exact .refl _
  | cons i ids ih =>
    apply Later.step
    unfold cronStatement execute
    dsimp only
    by_cases hi : s.timers.callback i = none
    · rw [if_pos hi]
      have hsame : (∀ j ∈ i :: ids, s.timers.callback j = none) ↔
          ∀ j ∈ ids, s.timers.callback j = none := by simp [hi]
      simp only [hsame]
      exact ih
    · rw [if_neg hi, if_neg (fun hall => hi (hall i List.mem_cons_self))]
      exact .refl _

theorem cancel_uninterrupted (s : CronState) (id : AtId) (rest : List Activation) :
    ∃ interrupts, Later ⟨s, .atCancel id .clear :: rest⟩
      ⟨⟨atCancel s.timers id, interrupts⟩, rest⟩ := by
  let s₁ := s.setCallback id none
  have hloop := cancel_empty s₁ id rest AtId.all
  have hall : (∀ i ∈ AtId.all, s₁.timers.callback i = none) ↔ atAllEmpty s₁.timers = true := by
    rw [atAllEmpty_iff]
    constructor
    · intro h i
      exact h i (by cases i <;> decide)
    · intro h i _
      exact h i
  by_cases hempty : atAllEmpty s₁.timers = true
  · have hdone : atCancel s.timers id = cronDisable s₁.timers .idAt := if_pos hempty
    rw [if_pos (hall.mpr hempty)] at hloop
    rw [hdone]
    exact ⟨_, Later.step (hloop.trans (disable_uninterrupted s₁ .idAt rest))⟩
  · have hdone : atCancel s.timers id = s₁.timers := if_neg hempty
    rw [if_neg (fun h => hempty (hall.mp h))] at hloop
    rw [hdone]
    exact ⟨s.interrupts, Later.step hloop⟩

/-! ### What each statement may rely on -/

/-- No callback is pending. -/
def NonePending (s : CronState) : Prop := ∀ id, s.timers.callback id = none

def Registered (s : CronState) : Prop := s.timers.callbackArray .idAt = some .atVerify

/-- A pending callback is not stranded. -/
def NotStranded (s : CronState) : Prop :=
  (∃ id, s.timers.callback id ≠ none) →
    Registered s ∧ s.timers.engaged = true ∧ s.interrupts = true

/-- What the loop of `empty` has found out so far. -/
def EmptySoFar (s : CronState) (ids : List AtId) : Prop :=
  (∀ id, id ∉ ids → s.timers.callback id = none) ∧ ids <:+ AtId.all

/-- `is_required` will say yes while something is pending. -/
def StillRequired (s : CronState) (ids : List CronId) : Prop :=
  .idAt ∈ ids ∨ (∃ i ∈ ids, s.timers.callbackArray i ≠ none) ∨ NonePending s

def Relies (s : CronState) : Activation → Prop
  | .atCancel _ (.empty ids) => NotStranded s ∧ EmptySoFar s ids
  | .verify (.empty ids _) => NotStranded s ∧ EmptySoFar s ids
  | .cronEnable .idAt _ cb pc => cb = .atVerify ∧ match pc with
    | .callback => True
    | .factor => Registered s
    | .counter => Registered s
    | .required ids => Registered s ∧ .idAt ∈ ids
    | .interrupt => Registered s
    | .compare => Registered s ∧ s.interrupts = true
    | .start => Registered s ∧ s.interrupts = true
  | .cronDisable id pc => match pc with
    | .callback => NotStranded s ∧ (id = .idAt → NonePending s)
    | .factor => NotStranded s
    | .counter => NotStranded s
    | .required ids => NotStranded s ∧ StillRequired s ids
    | .interrupt => NonePending s
    | .stop => NonePending s
  | _ => NotStranded s

/-- What the stack relies on: the calls below the top one only need what holds
between two calls. -/
def StackRelies (s : CronState) : List Activation → Prop
  | [] => NotStranded s
  | a :: rest => Relies s a ∧ ∀ b ∈ rest, ∀ s', NotStranded s' → Relies s' b

def CronSound (t : CronCpu) : Prop := StackRelies t.state t.stack

theorem StackRelies.append {s : CronState} {new rest : List Activation} (h : StackRelies s new)
    (hrest : ∀ b ∈ rest, ∀ s', NotStranded s' → Relies s' b) : StackRelies s (new ++ rest) := by
  cases new with
  | nil =>
    cases rest with
    | nil => exact h
    | cons b rest =>
      exact ⟨hrest b List.mem_cons_self s h, fun c hc => hrest c (List.mem_cons_of_mem b hc)⟩
  | cons a new =>
    refine ⟨h.1, fun b hb => ?_⟩
    rcases List.mem_append.mp hb with hb | hb
    · exact h.2 b hb
    · exact hrest b hb

theorem stackRelies_one {s : CronState} {a : Activation} (h : Relies s a) :
    StackRelies s [a] := ⟨h, fun _ hb => absurd hb (by simp)⟩

/-! ### One statement -/

section Statement

variable {s : CronState}

theorem NonePending.served (h : NonePending s) : NotStranded s := fun ⟨id, hid⟩ => absurd (h id) hid

theorem NotStranded.clear (h : NotStranded s) (id : AtId) : NotStranded (s.setCallback id none) := by
  rintro ⟨i, hi⟩
  refine h ⟨i, fun hnone => hi ?_⟩
  change Function.update s.timers.callback id none i = none
  by_cases hid : i = id
  · rw [hid, Function.update_self]
  · rw [Function.update_of_ne hid]
    exact hnone

theorem NotStranded.setOther (h : NotStranded s) {id : CronId} (hid : id ≠ .idAt)
    (cb : Option CronCallback) : NotStranded (s.setCron id cb) := by
  intro hpending
  obtain ⟨hreg, hon⟩ := h hpending
  refine ⟨?_, hon⟩
  change Function.update s.timers.callbackArray id cb .idAt = _
  rw [Function.update_of_ne hid.symm]
  exact hreg

theorem emptySoFar_all : EmptySoFar s AtId.all := by
  refine ⟨fun id hid => absurd ?_ hid, List.suffix_rfl⟩
  cases id <;> decide

theorem EmptySoFar.none (h : EmptySoFar s []) : NonePending s := fun id => h.1 id (by simp)

theorem EmptySoFar.tail {i : AtId} {ids : List AtId} (h : EmptySoFar s (i :: ids))
    (hi : s.timers.callback i = Option.none) : EmptySoFar s ids := by
  refine ⟨fun id hid => ?_, (List.suffix_cons i ids).trans h.2⟩
  by_cases hsame : id = i
  · rw [hsame]
    exact hi
  · exact h.1 id (by simp [hsame, hid])

/-- The entry of the handler is the last one the loop looks at. -/
theorem EmptySoFar.spi_mem {i : AtId} {ids : List AtId} (h : EmptySoFar s (i :: ids)) :
    .spi ∈ i :: ids := by
  have htails : i :: ids ∈ AtId.all.tails := (List.mem_tails _ _).mpr h.2
  simp only [AtId.all, List.tails, List.mem_cons, List.not_mem_nil, or_false,
    List.cons_ne_nil] at htails
  rcases htails with heq | heq | heq | heq <;> rw [heq] <;> decide

theorem StillRequired.none (h : StillRequired s []) : NonePending s := by
  rcases h with h | ⟨i, hi, -⟩ | h
  · exact absurd h (by simp)
  · exact absurd hi (by simp)
  · exact h

theorem StillRequired.tail (hserved : NotStranded s) {i : CronId} {ids : List CronId}
    (h : StillRequired s (i :: ids)) (hi : s.timers.callbackArray i = Option.none) :
    StillRequired s ids := by
  rcases h with hmem | ⟨j, hj, hne⟩ | hnone
  · rcases List.mem_cons.mp hmem with rfl | hmem
    · -- the entry of `at.c` is free, so nothing is pending
      refine .inr (.inr fun id => ?_)
      by_contra hid
      obtain ⟨hreg, -⟩ := hserved ⟨id, hid⟩
      unfold Registered at hreg
      rw [hi] at hreg
      exact absurd hreg (by simp)
    · exact .inl hmem
  · rcases List.mem_cons.mp hj with rfl | hj
    · exact absurd hi hne
    · exact .inr (.inl ⟨j, hj, hne⟩)
  · exact .inr (.inr hnone)

theorem execute_schedule (id : AtId) (delay : Byte) (cb : AtCallback) (pc : SchedulePc)
    (h : Relies s (.atSchedule id delay cb pc)) :
    StackRelies (execute s (.atSchedule id delay cb pc)).1
      (execute s (.atSchedule id delay cb pc)).2 := by
  cases pc with
  | current => exact stackRelies_one h
  | max => exact stackRelies_one h
  | callback => exact stackRelies_one ⟨rfl, trivial⟩

theorem execute_cancel (id : AtId) (pc : CancelPc) (h : Relies s (.atCancel id pc)) :
    StackRelies (execute s (.atCancel id pc)).1 (execute s (.atCancel id pc)).2 := by
  cases pc with
  | clear =>
    have hserved : NotStranded s := h
    exact stackRelies_one ⟨hserved.clear id, emptySoFar_all⟩
  | empty ids =>
    obtain ⟨hserved, hempty⟩ := h
    cases ids with
    | nil => exact stackRelies_one ⟨hserved, fun _ => hempty.none⟩
    | cons i ids =>
      unfold execute
      dsimp only
      split_ifs with hi
      · exact stackRelies_one ⟨hserved, hempty.tail hi⟩
      · exact hserved

theorem execute_verify (pc : VerifyPc) (h : Relies s (.verify pc)) :
    StackRelies (execute s (.verify pc)).1 (execute s (.verify pc)).2 := by
  cases pc with
  | test ids =>
    have hserved : NotStranded s := h
    cases ids with
    | nil => exact hserved
    | cons id rest =>
      unfold execute
      dsimp only
      split_ifs
      · exact stackRelies_one hserved
      · exact stackRelies_one hserved
  | count id rest =>
    have hserved : NotStranded (s.setCurrent id (s.timers.current id + 1)) := h
    unfold execute
    dsimp only
    split_ifs
    · exact stackRelies_one hserved
    · exact stackRelies_one hserved
  | call id rest => exact stackRelies_one h
  | clear id rest =>
    have hserved : NotStranded s := h
    exact stackRelies_one ⟨hserved.clear id, emptySoFar_all⟩
  | empty ids rest =>
    obtain ⟨hserved, hempty⟩ := h
    cases ids with
    | nil =>
      refine ⟨⟨hserved, fun _ => hempty.none⟩, fun b hb s' hs' => ?_⟩
      rw [List.mem_singleton.mp hb]
      exact hs'
    | cons i ids =>
      unfold execute
      dsimp only
      split_ifs with hi
      · exact stackRelies_one ⟨hserved, hempty.tail hi⟩
      · exact stackRelies_one hserved

/-- The entry of `at.c` is registered first, and then looked at first. -/
theorem execute_enable_at (factor : Byte) (cb : CronCallback) (pc : EnablePc)
    (h : Relies s (.cronEnable .idAt factor cb pc)) :
    StackRelies (execute s (.cronEnable .idAt factor cb pc)).1
      (execute s (.cronEnable .idAt factor cb pc)).2 := by
  obtain ⟨rfl, h⟩ := h
  cases pc with
  | callback =>
    have hreg : Registered (s.setCron .idAt (some .atVerify)) := by
      unfold Registered CronState.setCron
      dsimp only
      rw [Function.update_self]
    exact stackRelies_one ⟨rfl, hreg⟩
  | factor => exact stackRelies_one ⟨rfl, h⟩
  | counter => exact stackRelies_one ⟨rfl, h, by decide⟩
  | required ids =>
    obtain ⟨hreg, hmem⟩ := h
    cases ids with
    | nil => exact absurd hmem (by simp)
    | cons i ids =>
      unfold execute
      dsimp only
      split_ifs with hi
      · refine stackRelies_one ⟨rfl, hreg, ?_⟩
        rcases List.mem_cons.mp hmem with rfl | hmem
        · unfold Registered at hreg
          rw [hi] at hreg
          exact absurd hreg (by simp)
        · exact hmem
      · exact stackRelies_one ⟨rfl, hreg⟩
  | interrupt => exact stackRelies_one ⟨rfl, h, rfl⟩
  | compare => exact stackRelies_one ⟨rfl, h⟩
  | start => exact fun _ => ⟨h.1, rfl, h.2⟩

theorem execute_enable_other {id : CronId} (hid : id ≠ .idAt) (factor : Byte) (cb : CronCallback)
    (pc : EnablePc) (h : NotStranded s) :
    StackRelies (execute s (.cronEnable id factor cb pc)).1
      (execute s (.cronEnable id factor cb pc)).2 := by
  have hrelies : ∀ s' pc', NotStranded s' → Relies s' (.cronEnable id factor cb pc') := by
    intro s' pc' hs'
    cases id with
    | idAt => exact absurd rfl hid
    | _ => exact hs'
  cases pc with
  | callback => exact stackRelies_one (hrelies _ _ (h.setOther hid _))
  | factor => exact stackRelies_one (hrelies _ _ h)
  | counter => exact stackRelies_one (hrelies _ _ h)
  | required ids =>
    cases ids with
    | nil => exact h
    | cons i ids =>
      unfold execute
      dsimp only
      split_ifs
      · exact stackRelies_one (hrelies _ _ h)
      · exact stackRelies_one (hrelies _ _ h)
  | interrupt =>
    refine stackRelies_one (hrelies _ _ fun hpending => ?_)
    obtain ⟨hreg, hon, -⟩ := h hpending
    exact ⟨hreg, hon, rfl⟩
  | compare => exact stackRelies_one (hrelies _ _ h)
  | start =>
    intro hpending
    obtain ⟨hreg, -, hirq⟩ := h hpending
    exact ⟨hreg, rfl, hirq⟩

theorem execute_disable (id : CronId) (pc : DisablePc) (h : Relies s (.cronDisable id pc)) :
    StackRelies (execute s (.cronDisable id pc)).1 (execute s (.cronDisable id pc)).2 := by
  cases pc with
  | callback =>
    obtain ⟨hserved, hnone⟩ := h
    by_cases hid : id = .idAt
    · have hstill : NonePending (s.setCron id none) := hnone hid
      exact stackRelies_one hstill.served
    · exact stackRelies_one (hserved.setOther hid none)
  | factor => exact stackRelies_one h
  | counter => exact stackRelies_one ⟨h, .inl (by decide)⟩
  | required ids =>
    obtain ⟨hserved, hstill⟩ := h
    cases ids with
    | nil => exact stackRelies_one hstill.none
    | cons i ids =>
      unfold execute
      dsimp only
      split_ifs with hi
      · exact stackRelies_one ⟨hserved, hstill.tail hserved hi⟩
      · exact hserved
  | interrupt => exact stackRelies_one h
  | stop =>
    have hnone : NonePending (s.setEngaged false) := h
    exact hnone.served

theorem execute_cronTry (pc : CronTryPc) (h : NotStranded s) :
    StackRelies (execute s (.cronTry pc)).1 (execute s (.cronTry pc)).2 := by
  cases pc with
  | drain =>
    have hserved : NotStranded { s with
        timers := { s.timers with queue := (bufByteDrain s.timers.queue).1 } } := h
    unfold execute
    dsimp only
    cases (bufByteDrain s.timers.queue).2.bind CronId.ofByte with
    | none => exact hserved
    | some id =>
      dsimp only
      split_ifs
      · exact hserved
      · exact stackRelies_one hserved
  | call id =>
    unfold execute
    dsimp only
    split_ifs
    · refine ⟨h, fun b hb s' hs' => ?_⟩
      rw [List.mem_singleton.mp hb]
      exact hs'
    · exact stackRelies_one h
  | within => exact h

theorem execute_interruptFunction (pc : CronInterruptPc) (h : NotStranded s) :
    StackRelies (execute s (.interruptFunction pc)).1 (execute s (.interruptFunction pc)).2 := by
  cases pc with
  | test ids =>
    cases ids with
    | nil => exact h
    | cons id rest =>
      unfold execute
      dsimp only
      split_ifs
      · exact stackRelies_one h
      · exact stackRelies_one h
  | count id rest =>
    unfold execute
    dsimp only
    split_ifs
    · exact stackRelies_one h
    · exact stackRelies_one h
  | fill id rest => exact stackRelies_one h

/-- Whatever a statement finds as it relies on, it leaves to what comes next. -/
theorem execute_relies (a : Activation) (h : Relies s a) :
    StackRelies (execute s a).1 (execute s a).2 := by
  cases a with
  | atSchedule id delay cb pc => exact execute_schedule id delay cb pc h
  | atPostpone id => exact h
  | atCancel id pc => exact execute_cancel id pc h
  | verify pc => exact execute_verify pc h
  | cronEnable id factor cb pc =>
    by_cases hid : id = .idAt
    · subst hid
      exact execute_enable_at factor cb pc h
    · refine execute_enable_other hid factor cb pc ?_
      cases id with
      | idAt => exact absurd rfl hid
      | _ => exact h
  | cronDisable id pc => exact execute_disable id pc h
  | cronTry pc => exact execute_cronTry pc h
  | interruptFunction pc => exact execute_interruptFunction pc h

end Statement

/-! ### The interrupt -/

/-- The main loop has not yet made up its mind to unregister `verify` or to
disengage the timer. -/
def Undecided (s : CronState) : List Activation → Prop
  | .atCancel _ (.empty []) :: _ => False
  | .verify (.empty [] _) :: _ => False
  | .cronDisable id pc :: _ => match pc with
    | .callback => id ≠ .idAt
    | .required ids => .idAt ∈ ids ∨ ∃ i ∈ ids, s.timers.callbackArray i ≠ none
    | .interrupt => False
    | .stop => False
    | _ => True
  | _ => True

def InTime (t : CronCpu) : CronEvent → Prop
  | .int3 => Undecided t.state t.stack
  | _ => True

instance (s : CronState) : (stack : List Activation) → Decidable (Undecided s stack)
  | [] => .isTrue trivial
  | .atSchedule _ _ _ _ :: _ => .isTrue trivial
  | .atPostpone _ :: _ => .isTrue trivial
  | .atCancel _ .clear :: _ => .isTrue trivial
  | .atCancel _ (.empty []) :: _ => .isFalse id
  | .atCancel _ (.empty (_ :: _)) :: _ => .isTrue trivial
  | .verify (.test _) :: _ => .isTrue trivial
  | .verify (.count _ _) :: _ => .isTrue trivial
  | .verify (.call _ _) :: _ => .isTrue trivial
  | .verify (.clear _ _) :: _ => .isTrue trivial
  | .verify (.empty [] _) :: _ => .isFalse id
  | .verify (.empty (_ :: _) _) :: _ => .isTrue trivial
  | .cronEnable _ _ _ _ :: _ => .isTrue trivial
  | .cronDisable id .callback :: _ => inferInstanceAs (Decidable (id ≠ .idAt))
  | .cronDisable _ .factor :: _ => .isTrue trivial
  | .cronDisable _ .counter :: _ => .isTrue trivial
  | .cronDisable _ (.required ids) :: _ =>
    inferInstanceAs (Decidable (.idAt ∈ ids ∨ ∃ i ∈ ids, s.timers.callbackArray i ≠ none))
  | .cronDisable _ .interrupt :: _ => .isFalse id
  | .cronDisable _ .stop :: _ => .isFalse id
  | .cronTry _ :: _ => .isTrue trivial
  | .interruptFunction _ :: _ => .isTrue trivial

instance (t : CronCpu) : (e : CronEvent) → Decidable (InTime t e)
  | .int3 => inferInstanceAs (Decidable (Undecided _ _))
  | .call _ => .isTrue trivial
  | .statement => .isTrue trivial

theorem int3Cron_registered (s : CronState) : Registered (int3Cron s) := by
  unfold Registered int3Cron atSchedule
  dsimp only
  rw [cronEnable_self]

theorem int3Cron_engaged (s : CronState) : (int3Cron s).timers.engaged = true := by
  have hrequired := (isRequired_iff _).mpr ⟨.idAt, by
    have hreg := int3Cron_registered s
    unfold Registered at hreg
    rw [hreg]
    simp⟩
  unfold int3Cron atSchedule cronEnable at hrequired ⊢
  dsimp only at hrequired ⊢
  split_ifs at hrequired ⊢ with h
  · rfl
  · exact absurd hrequired h

theorem int3Cron_served (s : CronState) : NotStranded (int3Cron s) :=
  fun _ => ⟨int3Cron_registered s, int3Cron_engaged s, rfl⟩

/-- The other entries are none of the handler's business. -/
theorem int3Cron_other (s : CronState) {i : CronId} (h : i ≠ .idAt) :
    (int3Cron s).timers.callbackArray i = s.timers.callbackArray i :=
  atSchedule_other _ h _ _ _

theorem EmptySoFar.int3 {s : CronState} {i : AtId} {ids : List AtId}
    (h : EmptySoFar s (i :: ids)) : EmptySoFar (int3Cron s) (i :: ids) := by
  refine ⟨fun id hid => ?_, h.2⟩
  have hne : id ≠ .spi := fun heq => hid (heq ▸ h.spi_mem)
  have hcallback : (int3Cron s).timers.callback =
      Function.update s.timers.callback .spi (some .misconfirm) := atSchedule_callback _ _ _ _
  rw [hcallback, Function.update_of_ne hne]
  exact h.1 id hid

theorem int3_relies {s : CronState} {a : Activation} {rest : List Activation} (h : Relies s a)
    (hc : Undecided s (a :: rest)) : Relies (int3Cron s) a := by
  have hserved := int3Cron_served s
  have hreg := int3Cron_registered s
  cases a with
  | atSchedule id delay cb pc => exact hserved
  | atPostpone id => exact hserved
  | atCancel id pc =>
    cases pc with
    | clear => exact hserved
    | empty ids =>
      cases ids with
      | nil => exact hc.elim
      | cons i ids => exact ⟨hserved, h.2.int3⟩
  | verify pc =>
    cases pc with
    | empty ids rest =>
      cases ids with
      | nil => exact hc.elim
      | cons i ids => exact ⟨hserved, h.2.int3⟩
    | _ => exact hserved
  | cronEnable id factor cb pc =>
    cases id with
    | idAt =>
      refine ⟨h.1, ?_⟩
      cases pc with
      | callback => trivial
      | factor => exact hreg
      | counter => exact hreg
      | required ids => exact ⟨hreg, h.2.2⟩
      | interrupt => exact hreg
      | compare => exact ⟨hreg, rfl⟩
      | start => exact ⟨hreg, rfl⟩
    | _ => exact hserved
  | cronDisable id pc =>
    cases pc with
    | callback => exact ⟨hserved, fun hid => absurd hid hc⟩
    | factor => exact hserved
    | counter => exact hserved
    | required ids =>
      refine ⟨hserved, ?_⟩
      rcases hc with hmem | ⟨i, hi, hne⟩
      · exact .inl hmem
      · by_cases hid : i = .idAt
        · exact .inl (hid ▸ hi)
        · exact .inr (.inl ⟨i, hi, by rw [int3Cron_other s hid]; exact hne⟩)
    | interrupt => exact hc.elim
    | stop => exact hc.elim
  | cronTry pc => exact hserved
  | interruptFunction pc => exact hserved

/-! ### All runs -/

theorem begin_relies {s : CronState} {stack : List Activation} (h : StackRelies s stack)
    (hcall : Callable stack = true) (c : CronCall) : StackRelies s (c.begin ++ stack) := by
  have hserved : NotStranded s := by
    match stack, hcall with
    | [], _ => exact h
    | .verify (.call _ _) :: _, _ => exact h.1
    | .cronTry .within :: _, _ => exact h.1
  have hrest : ∀ b ∈ stack, ∀ s', NotStranded s' → Relies s' b := by
    match stack, hcall with
    | [], _ => exact fun b hb => absurd hb (by simp)
    | .verify (.call _ _) :: rest, _ =>
      intro b hb s' hs'
      rcases List.mem_cons.mp hb with rfl | hb
      · exact hs'
      · exact h.2 b hb s' hs'
    | .cronTry .within :: rest, _ =>
      intro b hb s' hs'
      rcases List.mem_cons.mp hb with rfl | hb
      · exact hs'
      · exact h.2 b hb s' hs'
  refine StackRelies.append ?_ hrest
  cases c with
  | cronEnable id factor cb =>
    unfold CronCall.begin
    dsimp only
    split_ifs with hid
    · exact hserved
    · refine stackRelies_one ?_
      cases id with
      | idAt => exact absurd rfl hid
      | _ => exact hserved
  | cronDisable id =>
    unfold CronCall.begin
    dsimp only
    split_ifs with hid
    · exact hserved
    · exact stackRelies_one ⟨hserved, fun heq => absurd heq hid⟩
  | _ => exact stackRelies_one hserved

theorem cronStep_sound (t : CronCpu) (e : CronEvent) (h : CronSound t) (hc : InTime t e) :
    CronSound (cronStep t e) := by
  obtain ⟨s, stack⟩ := t
  cases e with
  | call c =>
    unfold cronStep
    dsimp only
    split_ifs with hcall
    · exact begin_relies h hcall c
    · exact h
  | statement =>
    cases stack with
    | nil => exact h
    | cons a rest => exact (execute_relies a h.1).append h.2
  | int3 =>
    cases stack with
    | nil => exact int3Cron_served s
    | cons a rest => exact ⟨int3_relies h.1 hc, h.2⟩

theorem cronPower_sound : CronSound cronPower := fun ⟨_, hid⟩ => absurd rfl hid

/-- Between two calls of the main loop no scheduled callback is stranded, as
long as the handler has always come in time. -/
theorem callbacks_served (es : List CronEvent) (h : Along cronStep InTime cronPower es) :
    Throughout cronStep (fun t => t.stack = [] → NotStranded t.state) cronPower es := by
  rw [throughout_iff_start]
  intro ds hd hidle
  have hsound := run_invariant cronStep_sound cronPower_sound (h.take hd)
  unfold CronSound at hsound
  rw [hidle] at hsound
  exact hsound

def cronStatements (n : ℕ) : List CronEvent := List.replicate n .statement

/-- The handler comes when `empty` has not yet looked at its entry. -/
theorem callbacks_served_of_cancel :
    Throughout cronStep (fun t => t.stack = [] → NotStranded t.state) cronPower
      ([CronEvent.call (.atSchedule .menu 1 .stop)] ++ cronStatements 10 ++
        [CronEvent.call (.atCancel .menu)] ++ cronStatements 4 ++ [CronEvent.int3] ++
        cronStatements 1) :=
  callbacks_served _ (by decide +kernel)

/-- Between two calls `misconfirm` is pending, with `verify` unregistered and the
timer disengaged. -/
def ConfirmWaits (t : CronCpu) : Prop :=
  t.stack = [] ∧ t.state.timers.callback .spi = some .misconfirm ∧
    t.state.timers.callbackArray .idAt = none ∧ t.state.timers.engaged = false

instance (t : CronCpu) : Decidable (ConfirmWaits t) := inferInstanceAs (Decidable (_ ∧ _))

theorem ConfirmWaits.stranded {t : CronCpu} (h : ConfirmWaits t) : ¬ NotStranded t.state := by
  obtain ⟨-, hpending, hfree, -⟩ := h
  intro hserved
  obtain ⟨hreg, -⟩ := hserved ⟨.spi, by rw [hpending]; simp⟩
  unfold Registered at hreg
  rw [hfree] at hreg
  exact absurd hreg (by simp)

/-- Ticks of the counter, each over before the next. -/
def wholeTicks (n : ℕ) : List CronEvent :=
  (List.replicate n (.call .interruptFunction :: cronStatements 7)).flatten

/-- After a first INT3 `verify` has called its `misconfirm` when the time is up. The
second comes when `empty` is about to return 1. -/
@[irreducible] def secondConfirm : List CronEvent :=
  .int3 :: wholeTicks 400 ++ .call .cronTry :: cronStatements 20 ++
    .call .cronTry :: cronStatements 13 ++ .int3 :: cronStatements 17

/-- INT3 comes when the `empty` of an `at_cancel` is about to return 1. -/
@[irreducible] def confirmInCancel : List CronEvent :=
  .call (.atSchedule .menu 1 .stop) :: cronStatements 10 ++ .call (.atCancel .menu) ::
    cronStatements 5 ++ .int3 :: cronStatements 11

set_option maxRecDepth 20000 in
/-- In `verify` as in `at_cancel`, `cron_disable` then unregisters `verify` and
disengages the timer, and the confirmation signal is never lowered. -/
theorem confirm_callback_stranded :
    ConfirmWaits (run cronStep cronPower secondConfirm) ∧
      ¬ NotStranded (run cronStep cronPower secondConfirm).state ∧
      ConfirmWaits (run cronStep cronPower confirmInCancel) ∧
      ¬ NotStranded (run cronStep cronPower confirmInCancel).state := by
  have hverify : ConfirmWaits (run cronStep cronPower secondConfirm) := by decide +kernel
  have hcancel : ConfirmWaits (run cronStep cronPower confirmInCancel) := by decide +kernel
  exact ⟨hverify, hverify.stranded, hcancel, hcancel.stranded⟩

end LedServer.Avr
