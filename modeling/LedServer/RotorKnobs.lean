import LedServer.AvrRotor
import LedServer.Machine

set_option autoImplicit false

/-!
# Four knobs on one queue

The samples of port K carry four knobs. What `rotor_try` calls for one of them
are the windows of its own two bits but those that go with the three samples of
another knob.
-/
namespace LedServer.Avr
open AvrRing WindowScan Machine

/-! ### The queue is a scan -/

/-- The samples of port K in a run. -/
def kSamples (es : List RotorEvent) : List Byte :=
  es.filterMap fun e =>
    match e with
    | .pcint2 pink => some (kSample pink)
    | .pcint1 _ => none
    | .tryQueue _ => none

/-- The queue of port K is not filled. -/
def Room (r : Rotor) : RotorEvent → Prop
  | .pcint1 _ => True
  | .pcint2 _ => r.kEventBuf.count + 1 < 64
  | .tryQueue _ => True

instance (r : Rotor) : (e : RotorEvent) → Decidable (Room r e)
  | .pcint1 _ => .isTrue trivial
  | .pcint2 _ => inferInstanceAs (Decidable (r.kEventBuf.count + 1 < 64))
  | .tryQueue _ => .isTrue trivial

/-- Without an overflow, and no window of port K is left at the end. -/
def Drained (es : List RotorEvent) : Prop :=
  Along rotorStep Room rotorInit es ∧ (run rotorStep rotorInit es).kEventBuf.count < 3

instance (es : List RotorEvent) : Decidable (Drained es) :=
  inferInstanceAs (Decidable (_ ∧ _))

/-- The calls for the knobs of port K. -/
def kCalls (calls : List RotorCall) : List RotorCall := calls.filter fun c => c.id < rotor4

/-- `all` has been sampled, and what is held is what has not been looked at. -/
structure Read (r : Rotor) (all : List Byte) : Prop where
  valid : r.kEventBuf.Valid
  scans : Scans (recognise .idK) (kCalls r.calls) r.kEventBuf.contents all

theorem rotorInit_read : Read rotorInit [] where
  valid := ringInit_valid (by decide)
  scans := by
    have hempty : rotorInit.kEventBuf.contents = [] := ringInit_contents 64
    rw [hempty]
    exact scans_nil

theorem kCalls_idJ (modern old oldest : Byte) :
    kCalls (handleEvent .idJ modern old oldest) = [] := by
  refine List.filter_eq_nil_iff.mpr fun c hc => ?_
  have := handleEvent_idJ_id modern old oldest c hc
  simpa using this

theorem kCalls_idK (modern old oldest : Byte) :
    kCalls (handleEvent .idK modern old oldest) = handleEvent .idK modern old oldest := by
  refine List.filter_eq_self.mpr fun c hc => ?_
  rw [handleEvent_idK, knobCalls, List.mem_filterMap] at hc
  obtain ⟨j, hj, hcall⟩ := hc
  obtain ⟨action, -, rfl⟩ := Option.map_eq_some_iff.mp hcall
  have hlt : j < 4 := List.mem_range.mp hj
  have hid : BitVec.ofNat 8 j < rotor4 := by
    unfold rotor4
    bv_omega
  exact decide_eq_true hid

theorem front_idK (held : List Byte) :
    kCalls (front (recognise .idK) held) = front (recognise .idK) held := by
  by_cases hshort : held.length < 3
  · rw [(short_eq hshort).2.1]
    rfl
  · obtain ⟨a, b, c, rest, rfl⟩ := exists_window hshort
    exact kCalls_idK c b a

theorem Read.pcint2 {r : Rotor} {all : List Byte} (h : Read r all) {pink : Byte}
    (hroom : r.kEventBuf.count + 1 < 64) :
    Read (rotorStep r (.pcint2 pink)) (all ++ [kSample pink]) := by
  have hsize : (64 : Byte).toNat = 64 := rfl
  have hcontents := byteFill_contents h.valid (by omega) (by omega) (kSample pink)
  refine ⟨byteFill_valid h.valid _, ?_⟩
  have hpush := h.scans.push (kSample pink)
  rw [← hcontents] at hpush
  exact hpush

theorem Read.tryQueue {r : Rotor} {all : List Byte} (h : Read r all) (queueId : QueueId) :
    Read (rotorStep r (.tryQueue queueId)) all := by
  cases queueId with
  | idJ =>
    refine ⟨h.valid, ?_⟩
    have hnone : kCalls (Avr.tryQueue r.jEventBuf .idJ).2 = [] := by
      unfold Avr.tryQueue
      cases queueHead r.jEventBuf with
      | none => rfl
      | some head => exact kCalls_idJ head.2.2 head.2.1 head.1
    have hcalls : kCalls (rotorStep r (.tryQueue .idJ)).calls = kCalls r.calls := by
      rw [rotorStep, kCalls, List.filter_append]
      change kCalls r.calls ++ kCalls _ = kCalls r.calls
      rw [hnone, List.append_nil]
    rw [hcalls]
    exact h.scans
  | idK =>
    obtain ⟨hvalid, hcontents, hfront⟩ := tryQueue_eq h.valid .idK
    refine ⟨hvalid, ?_⟩
    have hcalls : kCalls (rotorStep r (.tryQueue .idK)).calls =
        kCalls r.calls ++ front (recognise .idK) r.kEventBuf.contents := by
      rw [rotorStep, kCalls, List.filter_append, hfront]
      exact congrArg (kCalls r.calls ++ ·) (front_idK _)
    have hnext := h.scans.next
    rw [← hcontents, ← hcalls] at hnext
    exact hnext

theorem Read.step {r : Rotor} {all : List Byte} (h : Read r all) {e : RotorEvent}
    (hroom : Room r e) : Read (rotorStep r e) (all ++ kSamples [e]) := by
  cases e with
  | pcint1 pinj =>
    rw [kSamples, List.filterMap_cons_none rfl, List.filterMap_nil, List.append_nil]
    exact ⟨h.valid, h.scans⟩
  | pcint2 pink => exact h.pcint2 hroom
  | tryQueue queueId =>
    rw [kSamples, List.filterMap_cons_none rfl, List.filterMap_nil, List.append_nil]
    exact h.tryQueue queueId

theorem Read.run {r : Rotor} {all : List Byte} (h : Read r all) {es : List RotorEvent}
    (hroom : Along rotorStep Room r es) : Read (run rotorStep r es) (all ++ kSamples es) := by
  induction es generalizing r all with
  | nil =>
    rw [kSamples, List.filterMap_nil, List.append_nil]
    exact h
  | cons e es ih =>
    have hrest := ih (h.step hroom.1) hroom.2
    rw [List.append_assoc, kSamples, kSamples, ← List.filterMap_append] at hrest
    exact hrest

/-- In a drained run the calls are those of the scan of all samples. -/
theorem Drained.calls {es : List RotorEvent} (h : Drained es) :
    kCalls (run rotorStep rotorInit es).calls = scan (recognise .idK) (kSamples es) := by
  have hread := rotorInit_read.run h.1
  have hshort := h.2
  rw [← contents_length] at hshort
  exact (hread.scans.short hshort).symm

/-! ### One knob -/

/-- The action of a call that is for knob `k`. -/
def actionOf (k : ℕ) (c : RotorCall) : Option Byte :=
  if c.id = BitVec.ofNat 8 k then some c.action else none

/-- The actions `menu_handle_rotor` has been called with for knob `k`. -/
def actions (k : ℕ) (r : Rotor) : List Byte := r.calls.filterMap (actionOf k)

/-- The windows of the two bits of knob `k`. -/
def ownTurns (k : ℕ) (es : List RotorEvent) : List (ℕ × Byte) := turns (knobTurn k) 0 (kSamples es)

/-- The window at `i` has lost a sample to one of a knob that was recognised. -/
def discarded (es : List RotorEvent) (i : ℕ) : Bool :=
  passedOver (recognised (recognise .idK) 0 (kSamples es)) i

theorem actions_kCalls {k : ℕ} (hk : k < 4) (r : Rotor) :
    actions k r = (kCalls r.calls).filterMap (actionOf k) := by
  rw [actions, kCalls, List.filterMap_filter]
  refine List.filterMap_congr fun c _ => ?_
  unfold actionOf
  split_ifs with hid hlt hlt
  · rfl
  · refine absurd ?_ hlt
    rw [hid, rotor4]
    exact decide_eq_true (by bv_omega)
  · rfl
  · rfl

/-- Of the four knobs one has the id `k`. -/
theorem filterMap_actionOf {k : ℕ} (hk : k < 4) (found : ℕ → Option Byte) :
    ((List.range 4).filterMap fun j => (found j).map fun action =>
      (⟨BitVec.ofNat 8 j, action⟩ : RotorCall)).filterMap (actionOf k) = (found k).toList := by
  have hone : ∀ j ∈ List.range 4, ((found j).map fun action =>
      (⟨BitVec.ofNat 8 j, action⟩ : RotorCall)).bind (actionOf k) =
        if j = k then found j else none := by
    intro j hj
    have hlt : j < 4 := List.mem_range.mp hj
    have hid : BitVec.ofNat 8 j = BitVec.ofNat 8 k ↔ j = k :=
      ⟨fun heq => by bv_omega, fun heq => by rw [heq]⟩
    cases found j with
    | none => exact (ite_self none).symm
    | some action =>
      simp only [Option.map_some, Option.bind_some, actionOf, hid]
  rw [List.filterMap_filterMap, List.filterMap_congr hone]
  have hrange : List.range 4 = [0, 1, 2, 3] := rfl
  rw [hrange]
  interval_cases k <;> simp [List.filterMap_cons] <;> cases found _ <;> rfl

theorem recognise_knob {k : ℕ} (hk : k < 4) (oldest old modern : Byte) :
    (recognise .idK oldest old modern).filterMap (actionOf k) =
      (knobTurn k oldest old modern).toList := by
  rw [recognise, handleEvent_idK]
  exact filterMap_actionOf hk fun j => knobTurn j oldest old modern

theorem turn_modern {oldest old modern : Bool × Bool} (h : (turn oldest old modern).isSome) :
    modern = (false, false) := by
  unfold turn at h
  by_cases hmodern : modern = (false, false)
  · exact hmodern
  · rw [if_neg hmodern] at h
    cases h

/-- A knob found at rest cannot be found turned with the next sample, nor with
the one after it. -/
theorem knobTurn_isolated (k : ℕ) : Isolated (knobTurn k) := by
  intro a b c d e habc
  have hrest : knobBits k c = (false, false) := turn_modern habc
  constructor
  · unfold knobTurn turn
    rw [hrest]
    simp
  · unfold knobTurn turn
    rw [hrest]
    simp

theorem Drained.actions {es : List RotorEvent} (h : Drained es) {k : ℕ} (hk : k < 4) :
    actions k (run rotorStep rotorInit es) =
      ((ownTurns k es).filter fun t => !discarded es t.1).map Prod.snd := by
  rw [actions_kCalls hk, h.calls, scan_filterMap (recognise_knob hk)]
  rfl

theorem ownTurns_bits (k : ℕ) (es : List RotorEvent) :
    ownTurns k es = turns turn 0 ((kSamples es).map (knobBits k)) :=
  turns_map (knobBits k) turn 0 (kSamples es)

/-- With the other knobs at rest all the time nothing of knob `k` is lost. -/
theorem knob_alone {k : ℕ} (hk : k < 4) {es : List RotorEvent} (h : Drained es)
    (halone : ∀ x ∈ kSamples es, ∀ j < 4, j ≠ k → knobBits j x = (false, false)) :
    actions k (run rotorStep rotorInit es) = (ownTurns k es).map Prod.snd := by
  rw [actions_kCalls hk, h.calls]
  refine scan_alone (knobTurn_isolated k) (recognise_knob hk) fun a ha b hb c hc hfound => ?_
  -- a call is for a knob below four, and any but `k` is at rest
  obtain ⟨call, hcall⟩ := List.exists_mem_of_ne_nil _ (mt List.isEmpty_iff.mpr hfound)
  rw [recognise, handleEvent_idK, knobCalls, List.mem_filterMap] at hcall
  obtain ⟨j, hj, hturn⟩ := hcall
  obtain ⟨action, haction, -⟩ := Option.map_eq_some_iff.mp hturn
  by_cases hjk : j = k
  · rw [← hjk, haction]
    rfl
  · have hrest : knobBits j a = (false, false) := halone a ha j (List.mem_range.mp hj) hjk
    have hrest' : knobBits j b = (false, false) := halone b hb j (List.mem_range.mp hj) hjk
    rw [knobTurn, hrest, hrest', turn] at haction
    simp at haction

/-- Two runs that agree on the bits of knob `k`: its own windows are the same,
each run calls for those of them it has not discarded, in their order, and what
discards one is not a window of the same knob. -/
theorem knob_windows_kept {k : ℕ} (hk : k < 4) {es ds : List RotorEvent} (hes : Drained es)
    (hds : Drained ds) (hagree : (kSamples es).map (knobBits k) = (kSamples ds).map (knobBits k)) :
    ownTurns k ds = ownTurns k es ∧
    actions k (run rotorStep rotorInit es) =
      ((ownTurns k es).filter fun t => !discarded es t.1).map Prod.snd ∧
    actions k (run rotorStep rotorInit ds) =
      ((ownTurns k es).filter fun t => !discarded ds t.1).map Prod.snd ∧
    (∀ t ∈ ownTurns k es, ∀ j, t.1 = j + 1 ∨ t.1 = j + 2 → ∀ s ∈ ownTurns k es, s.1 ≠ j) ∧
    ((∀ t ∈ ownTurns k es, discarded es t.1 = discarded ds t.1) →
      actions k (run rotorStep rotorInit es) = actions k (run rotorStep rotorInit ds)) := by
  have hown : ownTurns k ds = ownTurns k es := by
    rw [ownTurns_bits, ownTurns_bits, hagree]
  have hactions := hes.actions hk
  have hactions' := hds.actions hk
  rw [hown] at hactions'
  refine ⟨hown, hactions, hactions', fun t ht j hj => ?_, fun hsame => ?_⟩
  · exact not_mem_turns (knobTurn_isolated k) ht hj
  · rw [hactions, hactions']
    congr 1
    exact List.filter_congr fun t ht => by rw [hsame t ht]

/-- A sample at a time, each followed by a call of `rotor_try`. -/
def sampled (samples : List Byte) : List RotorEvent :=
  samples.flatMap fun x => .pcint2 (~~~x) :: rotorTry

/-- Knob 1 turned one sample before knob 0 takes the event of knob 0 with it. -/
theorem knob_window_lost :
    Drained (sampled [0, 2, 1, 0]) ∧ Drained (sampled [8, 6, 1, 0]) ∧
    (kSamples (sampled [0, 2, 1, 0])).map (knobBits 0) =
      (kSamples (sampled [8, 6, 1, 0])).map (knobBits 0) ∧
    actions 0 (run rotorStep rotorInit (sampled [0, 2, 1, 0])) = [rotorClockwise] ∧
    actions 0 (run rotorStep rotorInit (sampled [8, 6, 1, 0])) = [] := by
  decide +kernel

theorem knob_windows_kept_zero :
    ownTurns 0 (sampled [8, 6, 1, 0]) = ownTurns 0 (sampled [0, 2, 1, 0]) ∧
    actions 0 (run rotorStep rotorInit (sampled [0, 2, 1, 0])) =
      ((ownTurns 0 (sampled [0, 2, 1, 0])).filter
        fun t => !discarded (sampled [0, 2, 1, 0]) t.1).map Prod.snd ∧
    actions 0 (run rotorStep rotorInit (sampled [8, 6, 1, 0])) =
      ((ownTurns 0 (sampled [0, 2, 1, 0])).filter
        fun t => !discarded (sampled [8, 6, 1, 0]) t.1).map Prod.snd := by
  have hes : Drained (sampled [0, 2, 1, 0]) := by decide +kernel
  have hds : Drained (sampled [8, 6, 1, 0]) := by decide +kernel
  have hagree : (kSamples (sampled [0, 2, 1, 0])).map (knobBits 0) =
      (kSamples (sampled [8, 6, 1, 0])).map (knobBits 0) := by decide +kernel
  obtain ⟨hown, hkept, hkept', -, -⟩ := knob_windows_kept (k := 0) (by decide) hes hds hagree
  exact ⟨hown, hkept, hkept'⟩

end LedServer.Avr
