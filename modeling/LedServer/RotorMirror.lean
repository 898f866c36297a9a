import LedServer.RotorKnobs

set_option autoImplicit false

/-!
# Turning every knob the other way

Two runs of `rotor.c` whose samples differ in the A and B bits being exchanged
take the same windows off the queues. They call for opposite turns unless a
window leaves the direction open.
-/
namespace LedServer.Avr
open AvrRing Machine

/-! ### The exchange -/

/-- The A and the B bit of every knob exchanged. -/
def swapBits (x : Byte) : Byte := ((x &&& 0x55) <<< 1) ||| ((x >>> 1) &&& 0x55)

def RotorEvent.swap : RotorEvent → RotorEvent
  | .pcint1 pinj => .pcint1 (swapBits pinj)
  | .pcint2 pink => .pcint2 (swapBits pink)
  | .tryQueue queueId => .tryQueue queueId

/-- Clockwise for counter clockwise, and the other way round. -/
def opposite (action : Byte) : Byte :=
  if action = rotorClockwise then rotorCounterClockwise
  else if action = rotorCounterClockwise then rotorClockwise
  else action

def RotorCall.opposite (c : RotorCall) : RotorCall := { c with action := Avr.opposite c.action }

/-- Both bits of a knob are set in the first two samples and clear in the third:
the tests for the two directions both hold. -/
def OpenAt (i : ℕ) (oldest old modern : Byte) : Prop :=
  knobBits i oldest = (true, true) ∧ knobBits i old = (true, true) ∧
    knobBits i modern = (false, false)

instance (i : ℕ) (oldest old modern : Byte) : Decidable (OpenAt i oldest old modern) :=
  inferInstanceAs (Decidable (_ ∧ _))

/-- Some knob leaves its direction open in the window in front. -/
def OpenHead : Option (Byte × Byte × Byte) → Prop
  | none => False
  | some (oldest, old, modern) => ∃ i < 4, OpenAt i oldest old modern

instance : (head : Option (Byte × Byte × Byte)) → Decidable (OpenHead head)
  | none => .isFalse id
  | some (oldest, old, modern) => inferInstanceAs (Decidable (∃ i < 4, OpenAt i oldest old modern))

def Rotor.queue (r : Rotor) : QueueId → Buf
  | .idJ => r.jEventBuf
  | .idK => r.kEventBuf

/-- The window a try looks at tells the direction of every knob it finds turned. -/
def Determined (r : Rotor) : RotorEvent → Prop
  | .pcint1 _ => True
  | .pcint2 _ => True
  | .tryQueue queueId => ¬ OpenHead (queueHead (r.queue queueId))

instance (r : Rotor) : (e : RotorEvent) → Decidable (Determined r e)
  | .pcint1 _ => .isTrue trivial
  | .pcint2 _ => .isTrue trivial
  | .tryQueue queueId => inferInstanceAs (Decidable (¬ OpenHead (queueHead (r.queue queueId))))

/-! ### A sample and a window -/

theorem knobBits_swap {i : ℕ} (hi : i < 4) (x : Byte) :
    knobBits i (swapBits x) = (knobBits i x).swap := by
  revert i x
  decide +kernel

theorem jSample_swap (pinj : Byte) : jSample (swapBits pinj) = swapBits (jSample pinj) := by
  revert pinj
  decide +kernel

theorem kSample_swap (pink : Byte) : kSample (swapBits pink) = swapBits (kSample pink) := by
  revert pink
  decide +kernel

theorem jSample_le (pinj : Byte) : jSample pinj ≤ maskJ := by
  revert pinj
  decide +kernel

theorem swapBits_le {x : Byte} (h : x ≤ maskJ) : swapBits x ≤ maskJ := by
  revert x
  decide +kernel

/-- The two tests change places, and only their order tells them apart. -/
theorem turn_swap (oldest old modern : Bool × Bool) :
    (turn oldest.swap old.swap modern.swap).isSome = (turn oldest old modern).isSome ∧
      (turn oldest.swap old.swap modern.swap = (turn oldest old modern).map opposite ↔
        ¬ (oldest = (true, true) ∧ old = (true, true) ∧ modern = (false, false))) := by
  revert oldest old modern
  decide +kernel

theorem knobTurn_swap {i : ℕ} (hi : i < 4) (oldest old modern : Byte) :
    (knobTurn i (swapBits oldest) (swapBits old) (swapBits modern)).isSome =
        (knobTurn i oldest old modern).isSome ∧
      (knobTurn i (swapBits oldest) (swapBits old) (swapBits modern) =
          (knobTurn i oldest old modern).map opposite ↔ ¬ OpenAt i oldest old modern) := by
  unfold knobTurn OpenAt
  rw [knobBits_swap hi, knobBits_swap hi, knobBits_swap hi]
  exact turn_swap _ _ _

/-- Lists that keep the same indices are equal where they keep the same. -/
theorem filterMap_eq_iff {ι β : Type*} {u v : ι → Option β} {l : List ι}
    (h : ∀ i ∈ l, (u i).isSome = (v i).isSome) :
    (l.filterMap u).length = (l.filterMap v).length ∧
      (l.filterMap u = l.filterMap v ↔ ∀ i ∈ l, u i = v i) := by
  induction l with
  | nil => simp
  | cons i l ih =>
    obtain ⟨hlength, heq⟩ := ih fun j hj => h j (List.mem_cons_of_mem i hj)
    have hi := h i List.mem_cons_self
    cases hu : u i with
    | none =>
      have hv : v i = none := by rw [hu] at hi; simpa using hi.symm
      rw [List.filterMap_cons_none hu, List.filterMap_cons_none hv]
      exact ⟨hlength, by rw [heq, List.forall_mem_cons, hu, hv]; simp⟩
    | some x =>
      obtain ⟨y, hv⟩ : ∃ y, v i = some y := by
        rw [hu] at hi
        exact Option.isSome_iff_exists.mp hi.symm
      rw [List.filterMap_cons_some hu, List.filterMap_cons_some hv]
      refine ⟨by rw [List.length_cons, List.length_cons, hlength], ?_⟩
      rw [List.cons.injEq, heq, List.forall_mem_cons, hu, hv, Option.some.injEq]

theorem knobCalls_swap (knobs : List ℕ) (hknobs : ∀ j ∈ knobs, j < 4) (id : ℕ → Byte)
    (oldest old modern : Byte) :
    (knobCalls knobs id (swapBits oldest) (swapBits old) (swapBits modern)).length =
        (knobCalls knobs id oldest old modern).length ∧
      (knobCalls knobs id (swapBits oldest) (swapBits old) (swapBits modern) =
          (knobCalls knobs id oldest old modern).map RotorCall.opposite ↔
        ∀ j ∈ knobs, ¬ OpenAt j oldest old modern) := by
  have hsome : ∀ j ∈ knobs,
      ((knobTurn j (swapBits oldest) (swapBits old) (swapBits modern)).map
        fun action => (⟨id j, action⟩ : RotorCall)).isSome =
      (((knobTurn j oldest old modern).map fun action => (⟨id j, action⟩ : RotorCall)).map
        RotorCall.opposite).isSome := by
    intro j hj
    rw [Option.isSome_map, Option.isSome_map, Option.isSome_map,
      (knobTurn_swap (hknobs j hj) oldest old modern).1]
  have hcall : ∀ j ∈ knobs,
      ((knobTurn j (swapBits oldest) (swapBits old) (swapBits modern)).map
          (fun action => (⟨id j, action⟩ : RotorCall)) =
        ((knobTurn j oldest old modern).map fun action => (⟨id j, action⟩ : RotorCall)).map
          RotorCall.opposite ↔ ¬ OpenAt j oldest old modern) := by
    intro j hj
    have hinj : Function.Injective fun action : Byte => (⟨id j, action⟩ : RotorCall) :=
      fun x y hxy => congrArg RotorCall.action hxy
    rw [← (knobTurn_swap (hknobs j hj) oldest old modern).2, Option.map_map,
      ← (Option.map_injective hinj).eq_iff, Option.map_map]
    rfl
  obtain ⟨hlength, heq⟩ := filterMap_eq_iff hsome
  rw [← List.map_filterMap, List.length_map] at hlength
  rw [← List.map_filterMap] at heq
  exact ⟨hlength, heq.trans (forall₂_congr hcall)⟩

/-- A sample of port J has no bits of another knob. -/
theorem not_openAt_idJ {oldest old modern : Byte} (hold : old ≤ maskJ) {i : ℕ} (hi : i < 4)
    (hne : i ≠ 0) : ¬ OpenAt i oldest old modern := by
  have hrest : ∀ i < 4, i ≠ 0 → ∀ x : Byte, x ≤ maskJ → knobBits i x = (false, false) := by
    decide +kernel
  rintro ⟨-, hset, -⟩
  rw [hrest i hi hne old hold] at hset
  cases hset

theorem handleEvent_swap (source : QueueId) {oldest old modern : Byte}
    (hbits : source = .idJ → oldest ≤ maskJ ∧ old ≤ maskJ ∧ modern ≤ maskJ) :
    (handleEvent source (swapBits modern) (swapBits old) (swapBits oldest)).length =
        (handleEvent source modern old oldest).length ∧
      (handleEvent source (swapBits modern) (swapBits old) (swapBits oldest) =
          (handleEvent source modern old oldest).map RotorCall.opposite ↔
        ¬ OpenHead (some (oldest, old, modern))) := by
  cases source with
  | idJ =>
    obtain ⟨holdest, hold, hmodern⟩ := hbits rfl
    rw [handleEvent_idJ hmodern hold holdest,
      handleEvent_idJ (swapBits_le hmodern) (swapBits_le hold) (swapBits_le holdest)]
    obtain ⟨hlength, heq⟩ := knobCalls_swap [0] (by simp) (fun _ => rotor4)
      oldest old modern
    refine ⟨hlength, heq.trans ⟨?_, ?_⟩⟩
    · rintro hnot ⟨i, hi, hopen⟩
      by_cases hzero : i = 0
      · exact hnot 0 (by simp) (hzero ▸ hopen)
      · exact not_openAt_idJ hold hi hzero hopen
    · intro hnot j hj hopen
      exact hnot ⟨j, by simp at hj; omega, hopen⟩
  | idK =>
    rw [handleEvent_idK, handleEvent_idK]
    obtain ⟨hlength, heq⟩ := knobCalls_swap (List.range 4)
      (fun j hj => List.mem_range.mp hj) (BitVec.ofNat 8) oldest old modern
    refine ⟨hlength, heq.trans ⟨?_, ?_⟩⟩
    · rintro hnot ⟨i, hi, hopen⟩
      exact hnot i (List.mem_range.mpr hi) hopen
    · intro hnot j hj hopen
      exact hnot ⟨j, List.mem_range.mp hj, hopen⟩

/-! ### A queue -/

/-- The same cells are in use, and hold the exchanged samples. -/
structure Mirrored (b b' : Buf) : Prop where
  valid : b.Valid
  valid' : b'.Valid
  start : b'.start = b.start
  finish : b'.finish = b.finish
  contents : b'.contents = b.contents.map swapBits

/-- What a fill does to the contents, also at the last cell. -/
theorem bufByteFill_contents {b : Buf} (h : b.Valid) (x : Byte) :
    (bufByteFill b x).1.contents =
      if b.count < 64 then
        if 0 < b.start.toNat ∧ b.count + 1 = 64 then [] else b.contents ++ [x]
      else b.contents := by
  unfold bufByteFill
  split_ifs with hroom hlast
  · exact byteFill_lost h hlast.1 hlast.2 x
  · exact byteFill_contents h hroom hlast x
  · rw [byteFill_full h hroom x]

theorem bufByteFill_finish (b : Buf) (x : Byte) :
    (bufByteFill b x).1.finish =
      if ringIsFillable 64 b.start b.finish 1 then if b.finish < 64 then b.finish + 1 else 1
      else b.finish := by
  unfold bufByteFill ringByteFill
  split_ifs <;> rfl

namespace Mirrored

variable {b b' : Buf}

theorem count (h : Mirrored b b') : b'.count = b.count := by
  unfold Ring.count
  rw [h.start, h.finish]

theorem fill (h : Mirrored b b') (x : Byte) :
    Mirrored (bufByteFill b x).1 (bufByteFill b' (swapBits x)).1 where
  valid := byteFill_valid h.valid x
  valid' := byteFill_valid h.valid' (swapBits x)
  start := by
    rw [bufByteFill, bufByteFill, byteFill_start, byteFill_start, h.start]
  finish := by
    rw [bufByteFill_finish, bufByteFill_finish, h.start, h.finish]
  contents := by
    rw [bufByteFill_contents h.valid, bufByteFill_contents h.valid', h.count, h.start, h.contents]
    split_ifs
    · rfl
    · rw [List.map_append, List.map_singleton]
    · rfl

theorem drain (h : Mirrored b b') : Mirrored (bufByteDrain b).1 (bufByteDrain b').1 where
  valid := byteDrain_valid h.valid
  valid' := byteDrain_valid h.valid'
  start := by
    unfold bufByteDrain ringByteDrain
    rw [h.start, h.finish]
    split_ifs <;> first | rfl | exact h.start
  finish := by
    unfold bufByteDrain ringByteDrain
    rw [h.start, h.finish]
    split_ifs <;> first | rfl | exact h.finish
  contents := by
    have hmap := h.contents
    cases hc : b.contents with
    | nil =>
      rw [hc] at hmap
      rw [bufByteDrain, bufByteDrain, byteDrain_empty hc, byteDrain_empty hmap, hc, hmap]
    | cons x rest =>
      rw [hc] at hmap
      rw [bufByteDrain, bufByteDrain, (byteDrain_cons h.valid hc).2,
        (byteDrain_cons h.valid' hmap).2]

theorem queueDrain (h : Mirrored b b') (n : ℕ) :
    Mirrored (Avr.queueDrain b n) (Avr.queueDrain b' n) := by
  induction n generalizing b b' with
  | zero => exact h
  | succ n ih => exact ih h.drain

/-- Both tries discard the same samples, and make as many calls. -/
theorem tryQueue (h : Mirrored b b') (source : QueueId)
    (hbits : source = .idJ → ∀ x ∈ b.contents, x ≤ maskJ) :
    Mirrored (Avr.tryQueue b source).1 (Avr.tryQueue b' source).1 ∧
      (Avr.tryQueue b' source).2.length = (Avr.tryQueue b source).2.length ∧
      ((Avr.tryQueue b' source).2 = (Avr.tryQueue b source).2.map RotorCall.opposite ↔
        ¬ OpenHead (queueHead b)) := by
  by_cases hshort : b.contents.length < 3
  · rw [contents_length] at hshort
    have hshort' : b'.count < 3 := by rwa [h.count]
    rw [Avr.tryQueue, Avr.tryQueue, queueHead_short hshort, queueHead_short hshort']
    exact ⟨h, rfl, iff_of_true rfl id⟩
  · obtain ⟨oldest, old, modern, rest, hc⟩ := WindowScan.exists_window hshort
    have hc' : b'.contents =
        swapBits oldest :: swapBits old :: swapBits modern :: rest.map swapBits := by
      rw [h.contents, hc]
      rfl
    have hwindow : source = .idJ → oldest ≤ maskJ ∧ old ≤ maskJ ∧ modern ≤ maskJ := by
      intro hj
      have hall := hbits hj
      rw [hc] at hall
      exact ⟨hall oldest (by simp), hall old (by simp), hall modern (by simp)⟩
    obtain ⟨hlength, hcalls⟩ := handleEvent_swap source hwindow
    have hempty : (handleEvent source (swapBits modern) (swapBits old) (swapBits oldest)).isEmpty =
        (handleEvent source modern old oldest).isEmpty := by
      rw [Bool.eq_iff_iff, List.isEmpty_iff_length_eq_zero, List.isEmpty_iff_length_eq_zero,
        hlength]
    rw [Avr.tryQueue, Avr.tryQueue, queueHead_eq h.valid hc, queueHead_eq h.valid' hc']
    dsimp only
    rw [hempty]
    exact ⟨h.queueDrain _, hlength, hcalls⟩

end Mirrored

/-! ### A run -/

/-- Two runs after the same events, the samples of the second exchanged. -/
structure MirroredRuns (r r' : Rotor) : Prop where
  j : Mirrored r.jEventBuf r'.jEventBuf
  k : Mirrored r.kEventBuf r'.kEventBuf
  jBits : ∀ x ∈ r.jEventBuf.contents, x ≤ maskJ
  length : r'.calls.length = r.calls.length

theorem rotorInit_mirrored : MirroredRuns rotorInit rotorInit := by
  have hvalid : bufInit.Valid := ringInit_valid (by decide)
  have hnil : bufInit.contents = [] := ringInit_contents 64
  have hbuf : Mirrored bufInit bufInit := ⟨hvalid, hvalid, rfl, rfl, by rw [hnil]; rfl⟩
  refine ⟨hbuf, hbuf, fun x hx => ?_, rfl⟩
  rw [show rotorInit.jEventBuf.contents = [] from hnil] at hx
  exact absurd hx List.not_mem_nil

/-- The calls of a step are opposite when all calls are, those before included. -/
theorem append_opposite {calls calls' more more' : List RotorCall}
    (h : calls'.length = calls.length) :
    calls' ++ more' = (calls ++ more).map RotorCall.opposite ↔
      calls' = calls.map RotorCall.opposite ∧ more' = more.map RotorCall.opposite := by
  rw [List.map_append]
  constructor
  · exact fun heq => List.append_inj heq (by rw [List.length_map, h])
  · rintro ⟨rfl, rfl⟩
    rfl

namespace MirroredRuns

variable {r r' : Rotor}

theorem pcint1 (h : MirroredRuns r r') (pinj : Byte) :
    MirroredRuns (rotorStep r (.pcint1 pinj)) (rotorStep r' (.pcint1 (swapBits pinj))) := by
  have hfill := h.j.fill (jSample pinj)
  rw [← jSample_swap] at hfill
  refine ⟨hfill, h.k, fun x hx => ?_, h.length⟩
  simp only [rotorStep, bufByteFill_contents h.j.valid] at hx
  split_ifs at hx
  · exact absurd hx List.not_mem_nil
  · rcases List.mem_append.mp hx with hx | hx
    · exact h.jBits x hx
    · rw [List.mem_singleton.mp hx]
      exact jSample_le pinj
  · exact h.jBits x hx

theorem pcint2 (h : MirroredRuns r r') (pink : Byte) :
    MirroredRuns (rotorStep r (.pcint2 pink)) (rotorStep r' (.pcint2 (swapBits pink))) := by
  have hfill := h.k.fill (kSample pink)
  rw [← kSample_swap] at hfill
  exact ⟨h.j, hfill, h.jBits, h.length⟩

theorem tryQueue (h : MirroredRuns r r') (queueId : QueueId) :
    MirroredRuns (rotorStep r (.tryQueue queueId)) (rotorStep r' (.tryQueue queueId)) ∧
      ((rotorStep r' (.tryQueue queueId)).calls =
          (rotorStep r (.tryQueue queueId)).calls.map RotorCall.opposite ↔
        r'.calls = r.calls.map RotorCall.opposite ∧ Determined r (.tryQueue queueId)) := by
  cases queueId with
  | idJ =>
    obtain ⟨hbuf, hlength, hcalls⟩ := h.j.tryQueue .idJ fun _ => h.jBits
    refine ⟨⟨hbuf, h.k, fun x hx => ?_, ?_⟩, ?_⟩
    · simp only [rotorStep, (tryQueue_eq h.j.valid .idJ).2.1] at hx
      exact h.jBits x ((WindowScan.next_suffix _).subset hx)
    · simp only [rotorStep, List.length_append, h.length, hlength]
    · exact (append_opposite h.length).trans (and_congr_right fun _ => hcalls)
  | idK =>
    obtain ⟨hbuf, hlength, hcalls⟩ := h.k.tryQueue .idK fun hj => by cases hj
    refine ⟨⟨h.j, hbuf, h.jBits, ?_⟩, ?_⟩
    · simp only [rotorStep, List.length_append, h.length, hlength]
    · exact (append_opposite h.length).trans (and_congr_right fun _ => hcalls)

theorem step (h : MirroredRuns r r') (e : RotorEvent) :
    MirroredRuns (rotorStep r e) (rotorStep r' e.swap) ∧
      ((rotorStep r' e.swap).calls = (rotorStep r e).calls.map RotorCall.opposite ↔
        r'.calls = r.calls.map RotorCall.opposite ∧ Determined r e) := by
  cases e with
  | pcint1 pinj => exact ⟨h.pcint1 pinj, (and_iff_left trivial).symm⟩
  | pcint2 pink => exact ⟨h.pcint2 pink, (and_iff_left trivial).symm⟩
  | tryQueue queueId => exact h.tryQueue queueId

theorem run (h : MirroredRuns r r') (es : List RotorEvent) :
    (Machine.run rotorStep r' (es.map RotorEvent.swap)).calls =
        (Machine.run rotorStep r es).calls.map RotorCall.opposite ↔
      r'.calls = r.calls.map RotorCall.opposite ∧ Along rotorStep Determined r es := by
  induction es generalizing r r' with
  | nil => exact (and_iff_left trivial).symm
  | cons e es ih =>
    obtain ⟨hnext, hcalls⟩ := h.step e
    rw [List.map_cons, run_cons, run_cons, ih hnext, hcalls, and_assoc]
    rfl

end MirroredRuns

/-- Over every sequence of samples and calls of `rotor_try`, queues that overflow
included: the calls are the opposite ones exactly when no window that is looked
at leaves the direction of a knob open. -/
theorem opposite_turns (es : List RotorEvent) :
    (run rotorStep rotorInit (es.map RotorEvent.swap)).calls =
        (run rotorStep rotorInit es).calls.map RotorCall.opposite ↔
      Along rotorStep Determined rotorInit es :=
  (rotorInit_mirrored.run es).trans (and_iff_right rfl)

/-- Both bits of knob 0 set twice and then clear: clockwise either way round. -/
theorem clockwise_both_ways :
    (run rotorStep rotorInit (sampled [3, 3, 0])).calls = [⟨0, rotorClockwise⟩] ∧
    (run rotorStep rotorInit ((sampled [3, 3, 0]).map RotorEvent.swap)).calls =
      [⟨0, rotorClockwise⟩] ∧
    (run rotorStep rotorInit ((sampled [3, 3, 0]).map RotorEvent.swap)).calls ≠
      (run rotorStep rotorInit (sampled [3, 3, 0])).calls.map RotorCall.opposite := by
  decide +kernel

end LedServer.Avr
