import LedServer.WaitLoop
import LedServer.McuHandle
import LedServer.PiHandleStep
import LedServer.PiPopen

set_option autoImplicit false

/-!
# The loops of the three threads

`mcu_handle_t::start`, `handle_t::start` and `bash_t::start` between the tests of
`m_go`, the sections under the mutex and the waits. Each of the queues belongs to
the mutex and the condition of the loop that pops it.
-/
namespace LedServer
open Machine WaitLoop

/-- `condition_queue_t::push`: the queue, and whether it notifies. -/
def conditionPush {α : Type} (queue : List α) (record : α) : List α × Bool :=
  (queue ++ [record], queue.isEmpty)

namespace Mcu

/-- `start` up to the wait and behind it, and the section with the wait. -/
inductive McuAt where
  | test | body | lock | flag | queues | sleep
deriving DecidableEq

/-- Pushes, and the bytes of a transfer. -/
inductive McuPush where
  | message (msg : List Byte)
  | interrupt (rised : Bool)
  | byte (received : Byte)
deriving DecidableEq

/-- What is asked of the two queues and the block before the wait. -/
def McuWaits (m : McuHandle) : Prop :=
  m.interruptQueue = [] ∧ (isEngaged m.pendingId = true ∨ m.toQueue = [])

instance (m : McuHandle) : Decidable (McuWaits m) := inferInstanceAs (Decidable (_ ∧ _))

def mcuNext (go : Bool) (m : McuHandle) : McuAt → McuHandle × Outcome McuAt
  | .test => (m, if go = true then .goto .body else .exit)
  | .body =>
    if m.thrown = true then (m, .exit)
    else if m.pc = .wait then (m, .goto .lock)
    else
      (mcuStep m,
        if (mcuStep m).thrown = true then .exit
        else if (mcuStep m).pc = .interrupt then .goto .test
        else .goto .body)
  | .lock => (m, .goto .flag)
  | .flag => if go = true then (m, .goto .queues) else ({ m with pc := .send }, .goto .body)
  | .queues => if McuWaits m then (m, .goto .sleep) else ({ m with pc := .send }, .goto .body)
  | .sleep => ({ m with pc := .interrupt }, .wait .test)

def mcuWorker : Worker McuHandle McuAt McuPush where
  next := mcuNext
  holds
    | .flag | .queues | .sleep => true
    | _ => false
  interfere
    | .message msg, m =>
      ({ m with toQueue := (conditionPush m.toQueue msg).1 }, (conditionPush m.toQueue msg).2)
    | .interrupt rised, m =>
      ({ m with interruptQueue := (conditionPush m.interruptQueue rised).1 },
        (conditionPush m.interruptQueue rised).2)
    | .byte received, m => (if m.out = [] then m else transferByte m received, false)
  fences := false

/-! ### `mcu_handle_t` -/

def mcuPre : McuAt → McuHandle → Prop
  | .lock, m | .flag, m | .queues, m => m.thrown = false ∧ m.pc = .wait
  | .sleep, m => m.thrown = false ∧ m.pc = .wait ∧ McuWaits m
  | _, _ => True

/-- While the loop runs its steps are those of `mcu_handle_t`. -/
theorem mcuNext_step {m : McuHandle} {k : McuAt} (h : mcuPre k m) :
    (mcuNext true m k).1 = m ∨ (mcuNext true m k).1 = mcuStep m := by
  have hwait : m.thrown = false → m.pc = .wait →
      mcuStep m = if McuWaits m then { m with pc := .interrupt } else { m with pc := .send } := by
    intro hthrown hpc
    unfold mcuStep
    rw [if_neg (by rw [hthrown]; simp), hpc]
    rfl
  cases k with
  | test => exact .inl rfl
  | body =>
    unfold mcuNext
    dsimp only
    split
    · exact .inl rfl
    · split
      · exact .inl rfl
      · exact .inr rfl
  | lock => exact .inl rfl
  | flag => exact .inl rfl
  | queues =>
    unfold mcuNext
    dsimp only
    split
    · exact .inl rfl
    · rename_i hsend
      right
      rw [hwait h.1 h.2, if_neg hsend]
  | sleep =>
    right
    rw [hwait h.1 h.2.1, if_pos h.2.2]
    rfl

theorem mcuWaits_interfere {m : McuHandle} (h : McuWaits m) {p : McuPush}
    (hq : (mcuWorker.interfere p m).2 = false) : McuWaits (mcuWorker.interfere p m).1 := by
  obtain ⟨hinterrupt, hto⟩ := h
  cases p with
  | message msg =>
    refine ⟨hinterrupt, hto.imp_right fun hempty => ?_⟩
    change m.toQueue.isEmpty = false at hq
    rw [hempty] at hq
    cases hq
  | interrupt rised =>
    change m.interruptQueue.isEmpty = false at hq
    rw [hinterrupt] at hq
    cases hq
  | byte received =>
    unfold mcuWorker
    dsimp only
    split <;> exact ⟨hinterrupt, hto⟩

/-- The others do not touch where the thread is. -/
theorem interfere_pc (p : McuPush) (m : McuHandle) :
    (mcuWorker.interfere p m).1.thrown = m.thrown ∧ (mcuWorker.interfere p m).1.pc = m.pc := by
  cases p with
  | message msg => exact ⟨rfl, rfl⟩
  | interrupt rised => exact ⟨rfl, rfl⟩
  | byte received =>
    unfold mcuWorker
    dsimp only
    split <;> exact ⟨rfl, rfl⟩

theorem mcuNext_meets {go : Bool} {m : McuHandle} {k : McuAt} (h : mcuPre k m) :
    Meets mcuPre (fun k' s' => McuWaits s' ∧ ∀ s, mcuPre k' s) (mcuNext go m k) := by
  cases k with
  | test =>
    unfold mcuNext
    dsimp only
    split <;> trivial
  | body =>
    unfold mcuNext
    dsimp only
    split_ifs with hthrown hpc
    · trivial
    · exact ⟨by simpa using hthrown, hpc⟩
    all_goals trivial
  | lock => exact h
  | flag =>
    unfold mcuNext
    dsimp only
    split
    · exact h
    · trivial
  | queues =>
    unfold mcuNext
    dsimp only
    split
    · rename_i hwaits
      exact ⟨h.1, h.2, hwaits⟩
    · trivial
  | sleep => exact ⟨h.2.2, fun _ => trivial⟩

theorem mcuWorker_annotated : Annotated mcuWorker mcuPre McuWaits where
  next h := mcuNext_meets h
  stable {p m k} hfree h := by
    obtain ⟨hthrown, hpc⟩ := interfere_pc p m
    cases k with
    | test => trivial
    | body => trivial
    | lock => exact ⟨hthrown.trans h.1, hpc.trans h.2⟩
    | flag => cases hfree
    | queues => cases hfree
    | sleep => cases hfree
  silent h hq := mcuWaits_interfere h hq

/-- There is nothing to do for a thread that waits without a notification. -/
def McuServed (t : Loop McuHandle McuAt) : Prop :=
  ∀ k, t.thread = .waiting k → ¬ (t.data.interruptQueue ≠ [] ∨
    (isEngaged t.data.pendingId = false ∧ t.data.toQueue ≠ []))

theorem mcuServed_of_sleeps {t : Loop McuHandle McuAt} (h : Sleeps McuWaits t) : McuServed t := by
  rintro k hk (hinterrupt | ⟨hfree, hto⟩)
  · exact hinterrupt (h k hk).1
  · rcases (h k hk).2 with hengaged | hempty
    · rw [hfree] at hengaged
      cases hengaged
    · exact hto hempty

end Mcu

/-! ### `handle_t` -/

namespace Pi

/-- Between a pop and the next one the thread has the popped element in hand. -/
inductive HandleAt where
  | test | popStatus
  | handleStatus (status : Status)
  | popMcu
  | handleMcu (msg : List Byte)
  | lock | queues | sleep
deriving DecidableEq

/-- Pushes, and the pops of the other two threads. -/
inductive HandlePush where
  | status (status : Status)
  | mcu (msg : List Byte)
  | takeMcu
  | takeCommand
deriving DecidableEq

def HandleWaits (h : Handle) : Prop := h.statusQueue = [] ∧ h.fromMcuQueue = []

instance (h : Handle) : Decidable (HandleWaits h) := inferInstanceAs (Decidable (_ ∧ _))

def handleNext (go : Bool) (h : Handle) : HandleAt → Handle × WaitLoop.Outcome HandleAt
  | .test => (h, if go = true then .goto .popStatus else .exit)
  | .popStatus =>
    match h.statusQueue with
    | [] => (h, .goto .popMcu)
    | status :: rest => ({ h with statusQueue := rest }, .goto (.handleStatus status))
  | .handleStatus status =>
    match handleStatus h status with
    | none => (h, .exit)
    | some h => (h, .goto .popMcu)
  | .popMcu =>
    match h.fromMcuQueue with
    | [] => (h, .goto .lock)
    | msg :: rest => ({ h with fromMcuQueue := rest }, .goto (.handleMcu msg))
  | .handleMcu msg =>
    match handleMcu h msg with
    | none => (h, .exit)
    | some h => (h, .goto .lock)
  | .lock => (h, .goto .queues)
  | .queues => (h, if HandleWaits h then .goto .sleep else .goto .test)
  | .sleep => (h, .wait .test)

def handleWorker : Worker Handle HandleAt HandlePush where
  next := handleNext
  holds
    | .queues | .sleep => true
    | _ => false
  interfere
    | .status status, h =>
      ({ h with statusQueue := (conditionPush h.statusQueue status).1 },
        (conditionPush h.statusQueue status).2)
    | .mcu msg, h =>
      ({ h with fromMcuQueue := (conditionPush h.fromMcuQueue msg).1 },
        (conditionPush h.fromMcuQueue msg).2)
    | .takeMcu, h => ({ h with toMcuQueue := h.toMcuQueue.tail }, false)
    | .takeCommand, h => ({ h with commandQueue := h.commandQueue.tail }, false)
  fences := false

def handlePre : HandleAt → Handle → Prop
  | .sleep, h => HandleWaits h
  | _, _ => True

theorem handleWaits_interfere {h : Handle} (hw : HandleWaits h) {p : HandlePush}
    (hq : (handleWorker.interfere p h).2 = false) : HandleWaits (handleWorker.interfere p h).1 := by
  obtain ⟨hstatus, hmcu⟩ := hw
  cases p with
  | status status =>
    change h.statusQueue.isEmpty = false at hq
    rw [hstatus] at hq
    cases hq
  | mcu msg =>
    change h.fromMcuQueue.isEmpty = false at hq
    rw [hmcu] at hq
    cases hq
  | takeMcu => exact ⟨hstatus, hmcu⟩
  | takeCommand => exact ⟨hstatus, hmcu⟩

theorem handleWorker_annotated : Annotated handleWorker handlePre HandleWaits where
  next {go h k} hpre := by
    change Meets handlePre _ (handleNext go h k)
    unfold handleNext
    cases k with
    | queues =>
      dsimp only
      split
      · assumption
      · trivial
    | sleep => exact ⟨hpre, fun _ => trivial⟩
    | lock => trivial
    | test =>
      dsimp only
      split <;> trivial
    | _ =>
      dsimp only
      split <;> trivial
  stable {p h k} hfree hpre := by
    cases k with
    | sleep => cases hfree
    | _ => trivial
  silent h hq := handleWaits_interfere h hq

/-- There is nothing to do for a thread that waits without a notification. -/
def HandleServed (t : Loop Handle HandleAt) : Prop :=
  ∀ k, t.thread = .waiting k → ¬ (t.data.statusQueue ≠ [] ∨ t.data.fromMcuQueue ≠ [])

theorem handleServed_of_sleeps {t : Loop Handle HandleAt} (h : Sleeps HandleWaits t) :
    HandleServed t := by
  rintro k hk (hstatus | hmcu)
  · exact hstatus (h k hk).1
  · exact hmcu (h k hk).2

end Pi

/-- From the start of the loops, whoever pushes what and when: neither thread
waits, without a notification, for something that is there already. -/
theorem loops_served (m : Mcu.McuHandle) (h : Pi.Handle) :
    (∀ es, Throughout Mcu.mcuWorker.step Mcu.McuServed (Loop.start m .test) es) ∧
      ∀ es, Throughout Pi.handleWorker.step Pi.HandleServed (Loop.start h .test) es := by
  constructor
  · intro es
    have hsleeps := Mcu.mcuWorker_annotated.sleeps (s := m) (k := .test) trivial es
    rw [throughout_iff_start] at hsleeps ⊢
    exact fun ds hd => Mcu.mcuServed_of_sleeps (hsleeps ds hd)
  · intro es
    have hsleeps := Pi.handleWorker_annotated.sleeps (s := h) (k := .test) trivial es
    rw [throughout_iff_start] at hsleeps ⊢
    exact fun ds hd => Pi.handleServed_of_sleeps (hsleeps ds hd)

end LedServer
