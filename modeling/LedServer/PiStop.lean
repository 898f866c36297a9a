import LedServer.PiLoops

set_option autoImplicit false

/-!
# The end of the three threads

`stop` of `mcu_handle_t`, `handle_t` and `bash_t` clears `m_go` and notifies. What
of a loop lies between its last test of `m_go` and its wait is not safe from the
notification going by.
-/
namespace LedServer
open Machine WaitLoop

/-! ### `mcu_handle_t` -/

namespace Mcu

/-- At these steps the thread does not come to wait once `m_go` is cleared. -/
def mcuSafe : McuAt → McuHandle → Prop
  | .queues, m => ¬ McuWaits m
  | .sleep, _ => False
  | _, _ => True

instance : (k : McuAt) → (m : McuHandle) → Decidable (mcuSafe k m)
  | .queues, m => inferInstanceAs (Decidable (¬ McuWaits m))
  | .sleep, _ => .isFalse id
  | .test, _ => .isTrue trivial
  | .body, _ => .isTrue trivial
  | .lock, _ => .isTrue trivial
  | .flag, _ => .isTrue trivial

/-- The bytes of a transfer come without the other threads. -/
def Transferred : McuPush → Prop
  | .byte _ => True
  | _ => False

/-- The part of the loop body that is still to come. -/
def pcRank : McuPc → ℕ
  | .interrupt => 9
  | .popInterrupt => 7
  | .wait => 6
  | .send => 2
  | .transfer .interrupt => 1
  | .transfer back => pcRank back + 1

def mcuRank : McuAt → McuHandle → ℕ ×ₗ ℕ
  | .test, _ => toLex (0, 0)
  | .body, m => toLex (pcRank m.pc, m.out.length)
  | .lock, _ => toLex (5, 0)
  | .flag, _ => toLex (4, 0)
  | .queues, _ => toLex (3, 0)
  | .sleep, _ => toLex (0, 0)

theorem pcRank_pos (pc : McuPc) : 0 < pcRank pc := by
  induction pc with
  | transfer back ih =>
    cases back <;> simp [pcRank]
  | _ => simp [pcRank]

theorem rank_lt {a b : ℕ} (h : a < b) (i j : ℕ) : toLex (a, i) < toLex (b, j) :=
  Prod.Lex.toLex_lt_toLex.mpr (.inl h)

theorem pcRank_transfer {back : McuPc} (h : back ≠ .interrupt) :
    pcRank (.transfer back) = pcRank back + 1 := by
  cases back with
  | interrupt => exact absurd rfl h
  | _ => rfl

theorem writeMsg_pc (m : McuHandle) (msg : List Byte) (back : McuPc) :
    (writeMsg m msg back).pc = back ∨ (writeMsg m msg back).pc = .transfer back := by
  unfold writeMsg
  split
  · exact .inl rfl
  · exact .inr rfl

/-- A step of the body ends the body or comes closer to its end. -/
theorem mcuStep_rank {m : McuHandle} (hthrown : m.thrown = false) (hwait : m.pc ≠ .wait)
    (hout : ∀ back, m.pc = .transfer back → m.out = []) :
    (mcuStep m).pc = .interrupt ∨ pcRank (mcuStep m).pc < pcRank m.pc := by
  unfold mcuStep
  rw [if_neg (by simp [hthrown])]
  split
  · rename_i hpc
    right
    split
    · rcases writeMsg_pc m (encodeJoin serialIdToIgnore msgIdIdle []) .popInterrupt with h | h <;>
        rw [h, hpc] <;> decide
    · rw [hpc]
      exact show pcRank .popInterrupt < pcRank .interrupt by decide
  · rename_i hpc
    dsimp only
    split
    · exact .inl rfl
    · right
      rw [hpc]
      decide
  · rename_i hpc
    exact absurd hpc hwait
  · rename_i hpc
    split
    · exact .inl rfl
    · split
      · exact .inl rfl
      · rename_i msg rest _
        rcases writeMsg_pc { m with toQueue := rest } msg .interrupt with h | h
        · exact .inl h
        · right
          rw [h, hpc]
          decide
  · rename_i back hpc
    rw [if_pos (hout back hpc), hpc]
    change back = .interrupt ∨ pcRank back < _
    by_cases hback : back = .interrupt
    · exact .inl hback
    · right
      rw [pcRank_transfer hback]
      omega

theorem mcuWorker_ends : Ends mcuWorker mcuSafe where
  next {m k} hsafe := by
    change Meets mcuSafe (fun _ _ => False) (mcuNext false m k)
    unfold mcuNext
    cases k with
    | test => trivial
    | body =>
      dsimp only
      split_ifs <;> trivial
    | lock => trivial
    | flag => trivial
    | queues =>
      dsimp only
      rw [if_neg hsafe]
      trivial
    | sleep => exact hsafe
  resume go m k := by
    change Meets _ _ (mcuNext go m k)
    unfold mcuNext
    cases k with
    | test =>
      dsimp only
      split <;> trivial
    | body =>
      dsimp only
      split_ifs <;> trivial
    | lock => trivial
    | flag =>
      dsimp only
      split <;> trivial
    | queues =>
      dsimp only
      split <;> trivial
    | sleep => exact fun _ => trivial
  stable {p m k} hfree hsafe := by
    cases k with
    | queues => cases hfree
    | sleep => cases hfree
    | _ => trivial

theorem mcuWorker_descends : Descends mcuWorker mcuSafe Transferred mcuRank where
  next {m k} hsafe := by
    change Meets _ _ (mcuNext false m k) ∨ _
    unfold mcuNext
    cases k with
    | test => exact .inl trivial
    | body =>
      dsimp only
      split_ifs with hthrown hpc hthrown' hend
      · exact .inl trivial
      · left
        change toLex (5, 0) < toLex (pcRank m.pc, m.out.length)
        rw [hpc]
        exact rank_lt (show 5 < pcRank .wait by decide) _ _
      · exact .inl trivial
      · exact .inl (rank_lt (pcRank_pos m.pc) _ _)
      · by_cases hout : ∀ back, m.pc = .transfer back → m.out = []
        · left
          have hrank := mcuStep_rank (by simpa using hthrown) hpc hout
          exact rank_lt (hrank.resolve_left hend) _ _
        · -- The transfer waits for a byte.
          right
          push Not at hout
          obtain ⟨back, -, hout⟩ := hout
          refine ⟨.byte 0, trivial, rfl, ?_⟩
          change toLex (_, _) < _
          rw [show (mcuWorker.interfere (.byte 0) m).1 = transferByte m 0 from if_neg hout]
          refine Prod.Lex.toLex_lt_toLex.mpr (.inr ⟨rfl, ?_⟩)
          have hpos := List.length_pos_iff.mpr hout
          simp only [transferByte, List.length_tail]
          omega
    | lock => exact .inl (rank_lt (by decide) _ _)
    | flag => exact .inl (rank_lt (show pcRank .send < 4 by decide) _ _)
    | queues =>
      left
      dsimp only
      rw [if_neg hsafe]
      exact rank_lt (show pcRank .send < 3 by decide) _ _
    | sleep => exact hsafe.elim

end Mcu

namespace Pi

/-! ### `handle_t` -/

/-- At these steps the thread does not come to wait once `m_go` is cleared: more
is left in the queues than it takes before it looks at them. -/
def handleSafe : HandleAt → Handle → Prop
  | .test, _ => True
  | .popStatus, h => ¬ (h.statusQueue.length ≤ 1 ∧ h.fromMcuQueue.length ≤ 1)
  | .handleStatus _, h | .popMcu, h => ¬ (h.statusQueue = [] ∧ h.fromMcuQueue.length ≤ 1)
  | .handleMcu _, h | .lock, h | .queues, h => ¬ HandleWaits h
  | .sleep, _ => False

instance : (k : HandleAt) → (h : Handle) → Decidable (handleSafe k h)
  | .test, _ => .isTrue trivial
  | .popStatus, _ => inferInstanceAs (Decidable (¬ (_ ∧ _)))
  | .handleStatus _, _ => inferInstanceAs (Decidable (¬ (_ ∧ _)))
  | .popMcu, _ => inferInstanceAs (Decidable (¬ (_ ∧ _)))
  | .handleMcu _, h => inferInstanceAs (Decidable (¬ HandleWaits h))
  | .lock, h => inferInstanceAs (Decidable (¬ HandleWaits h))
  | .queues, h => inferInstanceAs (Decidable (¬ HandleWaits h))
  | .sleep, _ => .isFalse id

def handleRank : HandleAt → Handle → ℕ
  | .test, _ => 0
  | .popStatus, _ => 6
  | .handleStatus _, _ => 5
  | .popMcu, _ => 4
  | .handleMcu _, _ => 3
  | .lock, _ => 2
  | .queues, _ => 1
  | .sleep, _ => 0

theorem handleWaits_congr {h h' : Handle} (hmcu : h'.fromMcuQueue = h.fromMcuQueue)
    (hstatus : h'.statusQueue = h.statusQueue) : HandleWaits h' ↔ HandleWaits h := by
  unfold HandleWaits
  rw [hmcu, hstatus]

theorem handleNext_safe {h : Handle} {k : HandleAt} (hsafe : handleSafe k h) :
    Meets handleSafe (fun _ _ => False) (handleNext false h k) := by
  unfold handleNext
  cases k with
  | test => trivial
  | popStatus =>
    dsimp only
    split
    · rename_i hempty
      exact fun hw => hsafe ⟨by simp [hempty], hw.2⟩
    · rename_i status rest hstatus
      refine fun hw => hsafe ⟨?_, hw.2⟩
      rw [hstatus, show rest = [] from hw.1]
      simp
  | handleStatus status =>
    dsimp only
    split
    · trivial
    · rename_i h' hstatus
      obtain ⟨hmcu, hqueue⟩ := handleStatus_queues hstatus
      change ¬ (h'.statusQueue = [] ∧ h'.fromMcuQueue.length ≤ 1)
      rw [hqueue, hmcu]
      exact hsafe
  | popMcu =>
    dsimp only
    split
    · rename_i hempty
      exact fun hw => hsafe ⟨hw.1, by simp [hempty]⟩
    · rename_i msg rest hmcu
      refine fun hw => hsafe ⟨hw.1, ?_⟩
      rw [hmcu, show rest = [] from hw.2]
      simp
  | handleMcu msg =>
    dsimp only
    split
    · trivial
    · rename_i h' hmcu
      exact mt (handleWaits_congr (handleMcu_fromMcuQueue hmcu) (handleMcu_statusQueue hmcu)).mp
        hsafe
  | lock => exact hsafe
  | queues =>
    dsimp only
    rw [if_neg (show ¬ HandleWaits h from hsafe)]
    trivial
  | sleep => exact hsafe

/-- The others only add to the two queues. -/
theorem interfere_length (p : HandlePush) (h : Handle) :
    h.statusQueue.length ≤ (handleWorker.interfere p h).1.statusQueue.length ∧
      h.fromMcuQueue.length ≤ (handleWorker.interfere p h).1.fromMcuQueue.length := by
  cases p <;> simp [handleWorker, conditionPush]

theorem handleSafe_interfere {h : Handle} {k : HandleAt} (hsafe : handleSafe k h)
    (p : HandlePush) : handleSafe k (handleWorker.interfere p h).1 := by
  obtain ⟨hstatus, hmcu⟩ := interfere_length p h
  cases k with
  | test => trivial
  | sleep => exact hsafe
  | _ =>
    simp only [handleSafe, HandleWaits, ← List.length_eq_zero_iff] at hsafe ⊢
    omega

theorem handleWorker_ends : Ends handleWorker handleSafe where
  next hsafe := handleNext_safe hsafe
  resume go h k := by
    change Meets _ _ (handleNext go h k)
    unfold handleNext
    cases k with
    | test =>
      dsimp only
      split <;> trivial
    | lock => trivial
    | queues =>
      dsimp only
      split <;> trivial
    | sleep => exact fun _ => trivial
    | _ =>
      dsimp only
      split <;> trivial
  stable _ hsafe := handleSafe_interfere hsafe _

theorem handleWorker_descends :
    Descends handleWorker handleSafe (fun _ => False) handleRank where
  next {h k} hsafe := by
    left
    change Meets _ _ (handleNext false h k)
    unfold handleNext
    cases k with
    | test => trivial
    | lock => exact Nat.lt_succ_self _
    | queues =>
      dsimp only
      rw [if_neg (show ¬ HandleWaits h from hsafe)]
      exact Nat.lt_succ_self _
    | sleep => exact hsafe
    | _ =>
      dsimp only
      split <;> first
        | trivial
        | exact show (_ : ℕ) < _ by simp [handleRank]

/-! ### `bash_t` -/

structure BashThread where
  commandQueue : List Command
  bash : Bash

/-- The loop of `start`, with `pop<true>` and its wait; behind it the thread has
the mutex again. -/
inductive BashAt where
  | test | lock | queue | sleep | woken
  | execute (command : Command)
deriving DecidableEq

/-- Pushes, and what the handlers of `asio` do. -/
inductive BashPush where
  | command (command : Command)
  | handler (e : BashEvent)

def infinity : ℕ := 2 ^ 31 - 1

/-- What `start` pushes itself. -/
def startCommands : List Command :=
  [⟨.streamSystem, text "led-system.sh", infinity⟩,
    ⟨.streamTrackName, text "led-track-name.sh", infinity⟩,
    ⟨.streamClock, text "led-clock.sh", infinity⟩]

def bashNext (go : Bool) (b : BashThread) : BashAt → BashThread × WaitLoop.Outcome BashAt
  | .test => (b, if go = true then .goto .lock else .exit)
  | .lock => (b, .goto .queue)
  | .queue =>
    match b.commandQueue with
    | [] => (b, .goto .sleep)
    | command :: rest => ({ b with commandQueue := rest }, .goto (.execute command))
  | .sleep => (b, .wait .woken)
  | .woken =>
    match b.commandQueue with
    | [] => (b, .goto .test)
    | command :: rest => ({ b with commandQueue := rest }, .goto (.execute command))
  | .execute command => ({ b with bash := executeCommand b.bash command }, .goto .test)

/-- `notify_one<true>` takes the mutex, but not for its notification. -/
def bashWorker : Worker BashThread BashAt BashPush where
  next := bashNext
  holds
    | .queue | .sleep | .woken => true
    | _ => false
  interfere
    | .command command, b =>
      ({ b with commandQueue := (conditionPush b.commandQueue command).1 },
        (conditionPush b.commandQueue command).2)
    | .handler e, b => ({ b with bash := bashStep b.bash e }, false)
  fences := true

/-- At these steps the thread does not come to wait once `m_go` is cleared. -/
def bashSafe : BashAt → BashThread → Prop
  | .lock, b | .queue, b => b.commandQueue ≠ []
  | .sleep, _ => False
  | _, _ => True

instance : (k : BashAt) → (b : BashThread) → Decidable (bashSafe k b)
  | .lock, b => inferInstanceAs (Decidable (b.commandQueue ≠ []))
  | .queue, b => inferInstanceAs (Decidable (b.commandQueue ≠ []))
  | .sleep, _ => .isFalse id
  | .test, _ => .isTrue trivial
  | .woken, _ => .isTrue trivial
  | .execute _, _ => .isTrue trivial

def bashRank : BashAt → BashThread → ℕ
  | .test, _ => 0
  | .execute _, _ => 1
  | .woken, _ => 2
  | .queue, _ => 2
  | .lock, _ => 3
  | .sleep, _ => 0

theorem bashWorker_ends : Ends bashWorker bashSafe where
  next {b k} hsafe := by
    change Meets bashSafe (fun _ _ => False) (bashNext false b k)
    unfold bashNext
    cases k with
    | test => trivial
    | lock => exact hsafe
    | queue =>
      dsimp only
      split
      · rename_i hempty
        exact hsafe hempty
      · trivial
    | sleep => exact hsafe
    | woken =>
      dsimp only
      split <;> trivial
    | execute command => trivial
  resume go b k := by
    change Meets _ _ (bashNext go b k)
    unfold bashNext
    cases k with
    | lock => trivial
    | sleep => exact fun _ => trivial
    | execute command => trivial
    | _ =>
      dsimp only
      split <;> trivial
  stable {p b k} hfree hsafe := by
    cases k with
    | lock =>
      cases p with
      | command command => exact List.append_ne_nil_of_left_ne_nil hsafe _
      | handler e => exact hsafe
    | queue => cases hfree
    | sleep => cases hfree
    | _ => trivial

theorem bashWorker_descends : Descends bashWorker bashSafe (fun _ => False) bashRank where
  next {b k} hsafe := by
    left
    change Meets _ _ (bashNext false b k)
    unfold bashNext
    cases k with
    | test => trivial
    | lock => exact Nat.lt_succ_self _
    | queue =>
      dsimp only
      split
      · rename_i hempty
        exact absurd hempty hsafe
      · exact Nat.lt_succ_self _
    | sleep => exact hsafe
    | woken =>
      dsimp only
      split
      · exact show (_ : ℕ) < _ by simp [bashRank]
      · exact Nat.lt_succ_self _
    | execute command => exact Nat.lt_succ_self _

end Pi

/-! ### The three threads -/

/-- In runs in which `stop` notifies a thread that waits, or is at a step from
which it does not come to wait, none of the three waits behind the notification,
and each can be joined. -/
theorem loops_released (m : Mcu.McuHandle) (h : Pi.Handle) (b : Pi.BashThread)
    {ms : List (Event Mcu.McuPush)} {hs : List (Event Pi.HandlePush)}
    {bs : List (Event Pi.BashPush)}
    (hms : Along Mcu.mcuWorker.step (Timely Mcu.mcuWorker Mcu.mcuSafe) (Loop.start m .test) ms)
    (hhs : Along Pi.handleWorker.step (Timely Pi.handleWorker Pi.handleSafe)
      (Loop.start h .test) hs)
    (hbs : Along Pi.bashWorker.step (Timely Pi.bashWorker Pi.bashSafe) (Loop.start b .test) bs) :
    Throughout Mcu.mcuWorker.step
        (fun t => Released t ∧ Joinable Mcu.mcuWorker Mcu.Transferred t)
        (Loop.start m .test) ms ∧
      Throughout Pi.handleWorker.step
        (fun t => Released t ∧ Joinable Pi.handleWorker (fun _ => False) t)
        (Loop.start h .test) hs ∧
      Throughout Pi.bashWorker.step
        (fun t => Released t ∧ Joinable Pi.bashWorker (fun _ => False) t)
        (Loop.start b .test) bs :=
  ⟨Mcu.mcuWorker_ends.released Mcu.mcuWorker_descends hms,
    Pi.handleWorker_ends.released Pi.handleWorker_descends hhs,
    Pi.bashWorker_ends.released Pi.bashWorker_descends hbs⟩

/-- Each thread waits for what to do when the notification comes. -/
theorem loops_released_of_idle :
    Throughout Mcu.mcuWorker.step
        (fun t => Released t ∧ Joinable Mcu.mcuWorker Mcu.Transferred t)
        (Loop.start Mcu.mcuHandleInit .test)
        (List.replicate 8 Event.work ++ [Event.stop, .stop, .work, .work]) ∧
      Throughout Pi.handleWorker.step
        (fun t => Released t ∧ Joinable Pi.handleWorker (fun _ => False) t)
        (Loop.start (Pi.handleInit [] 1) .test)
        (List.replicate 6 Event.work ++ [Event.stop, .stop, .work, .work]) ∧
      Throughout Pi.bashWorker.step
        (fun t => Released t ∧ Joinable Pi.bashWorker (fun _ => False) t)
        (Loop.start ⟨Pi.startCommands, Pi.bashInit⟩ .test)
        (List.replicate 16 Event.work ++ [Event.stop, .stop, .stop, .work, .work, .work]) :=
  loops_released Mcu.mcuHandleInit (Pi.handleInit [] 1) ⟨Pi.startCommands, Pi.bashInit⟩
    (by decide +kernel) (by decide +kernel) (by decide +kernel)

/-- The notification goes by between the test of `m_go` and the wait, in each of
the three loops. -/
theorem loops_not_released :
    (¬ Throughout Mcu.mcuWorker.step Released (Loop.start Mcu.mcuHandleInit .test)
      (List.replicate 6 Event.work ++ [Event.stop, .stop, .work, .work])) ∧
    (¬ Throughout Pi.handleWorker.step Released (Loop.start (Pi.handleInit [] 1) .test)
      ([Event.work, .stop, .stop] ++ List.replicate 5 Event.work)) ∧
    ¬ Throughout Pi.bashWorker.step Released
      (Loop.start ⟨Pi.startCommands, Pi.bashInit⟩ .test)
      (List.replicate 13 Event.work ++ [Event.stop, .stop, .stop, .work, .work, .work]) :=
  ⟨fun h => h.last (by decide +kernel) .test (by decide +kernel),
    fun h => h.last (by decide +kernel) .test (by decide +kernel),
    fun h => h.last (by decide +kernel) .woken (by decide +kernel)⟩

end LedServer
