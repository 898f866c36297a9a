import LedServer.AvrMenu
import LedServer.AvrRingBulk
import LedServer.WindowScan

set_option autoImplicit false

/-!
# `rotor.c`

Two interrupts sample the pins of the knobs into two queues, `rotor_try` looks
at the three oldest samples of each. The registers set up by `rotor_init` are
left out.
-/
namespace LedServer.Avr
open AvrRing WindowScan

def maskK : Byte := 0xFF
def maskA : Byte := (1 : Byte) <<< 0
def maskB : Byte := (1 : Byte) <<< 1
def maskJ : Byte := ((1 : Byte) <<< 0) ||| ((1 : Byte) <<< 1)

def rotor0 : Byte := 0
def rotor4 : Byte := 4

inductive QueueId
  | idJ
  | idK
deriving DecidableEq

/-- A call of `menu_handle_rotor`. -/
structure RotorCall where
  id : Byte
  action : Byte
deriving DecidableEq

/-- The two queues, and the calls made so far. -/
structure Rotor where
  jEventBuf : Buf
  kEventBuf : Buf
  calls : List RotorCall

def rotorInit : Rotor := ⟨bufInit, bufInit, []⟩

/-- The loop of `handle_event` with `n` knobs to go. For port J it ends with the
first knob that is at rest in `modern`. -/
def handleEventLoop (source : QueueId) (modern old oldest shift : Byte) :
    Byte → Byte → Byte → ℕ → List RotorCall
  | _, _, _, 0 => []
  | a, b, i, n + 1 =>
    let rest := handleEventLoop source modern old oldest shift (a <<< 2) (b <<< 2) (i + 1) n
    if modern &&& (a ||| b) = 0 then
      let here :=
        if old &&& a ≠ 0 ∧ oldest &&& b ≠ 0 then [⟨i + shift, rotorClockwise⟩]
        else if old &&& b ≠ 0 ∧ oldest &&& a ≠ 0 then [⟨i + shift, rotorCounterClockwise⟩]
        else []
      if source = .idJ then here else here ++ rest
    else rest

/-- The calls of `handle_event`; it returns 1 if there is one. -/
def handleEvent (source : QueueId) (modern old oldest : Byte) : List RotorCall :=
  let shift := if source = .idJ then rotor4 else rotor0
  handleEventLoop source modern old oldest shift maskA maskB rotor0 4

/-- `oldest`, `old` and `modern`. -/
def queueHead (buf : Buf) : Option (Byte × Byte × Byte) :=
  if bufSize buf < 3 then none
  else
    match bufByteGet buf 0, bufByteGet buf 1, bufByteGet buf 2 with
    | some oldest, some old, some modern => some (oldest, old, modern)
    | _, _, _ => none

def queueDrain (buf : Buf) : ℕ → Buf
  | 0 => buf
  | n + 1 => queueDrain (bufByteDrain buf).1 n

def tryQueue (buf : Buf) (queueId : QueueId) : Buf × List RotorCall :=
  match queueHead buf with
  | some (oldest, old, modern) =>
    let calls := handleEvent queueId modern old oldest
    (queueDrain buf (if calls.isEmpty then 1 else 3), calls)
  | none => (buf, [])

def jSample (pinj : Byte) : Byte := ~~~(pinj &&& maskJ) &&& maskJ

def kSample (pink : Byte) : Byte := ~~~(pink &&& maskK)

/-- The two interrupts, and the two halves of `rotor_try`. -/
inductive RotorEvent
  | pcint1 (pinj : Byte)
  | pcint2 (pink : Byte)
  | tryQueue (queueId : QueueId)
deriving DecidableEq

/-- An interrupt may come between the halves. -/
def rotorTry : List RotorEvent := [.tryQueue .idJ, .tryQueue .idK]

def rotorStep (r : Rotor) : RotorEvent → Rotor
  | .pcint1 pinj => { r with jEventBuf := (bufByteFill r.jEventBuf (jSample pinj)).1 }
  | .pcint2 pink => { r with kEventBuf := (bufByteFill r.kEventBuf (kSample pink)).1 }
  | .tryQueue .idJ =>
    let next := tryQueue r.jEventBuf .idJ
    { r with jEventBuf := next.1, calls := r.calls ++ next.2 }
  | .tryQueue .idK =>
    let next := tryQueue r.kEventBuf .idK
    { r with kEventBuf := next.1, calls := r.calls ++ next.2 }

/-! ### A window -/

/-- The A and B input of a knob of the port. -/
def knobBits (i : ℕ) (sample : Byte) : Bool × Bool :=
  (sample.getLsbD (2 * i), sample.getLsbD (2 * i + 1))

/-- What three positions of one knob mean. -/
def turn (oldest old modern : Bool × Bool) : Option Byte :=
  if modern = (false, false) then
    if old.1 && oldest.2 then some rotorClockwise
    else if old.2 && oldest.1 then some rotorCounterClockwise
    else none
  else none

def knobTurn (i : ℕ) (oldest old modern : Byte) : Option Byte :=
  turn (knobBits i oldest) (knobBits i old) (knobBits i modern)

/-- The calls for some knobs, one after the other. -/
def knobCalls (knobs : List ℕ) (id : ℕ → Byte) (oldest old modern : Byte) : List RotorCall :=
  knobs.filterMap fun j => (knobTurn j oldest old modern).map fun action => ⟨id j, action⟩

/-- The masks of knob `i`. -/
def knobA (i : ℕ) : Byte := (1 : Byte) <<< (2 * i)

def knobB (i : ℕ) : Byte := (2 : Byte) <<< (2 * i)

theorem knob_bits {i : ℕ} (hi : i < 4) (sample : Byte) :
    (sample &&& knobA i ≠ 0 ↔ (knobBits i sample).1 = true) ∧
      (sample &&& knobB i ≠ 0 ↔ (knobBits i sample).2 = true) ∧
      (sample &&& (knobA i ||| knobB i) = 0 ↔ knobBits i sample = (false, false)) := by
  revert i sample
  decide +kernel

theorem knob_succ (i : ℕ) : knobA i <<< 2 = knobA (i + 1) ∧ knobB i <<< 2 = knobB (i + 1) :=
  ⟨(BitVec.shiftLeft_add _ _ _).symm, (BitVec.shiftLeft_add _ _ _).symm⟩

/-- The knobs of port K one after the other, each by its own two bits. -/
theorem handleEventLoop_idK (modern old oldest : Byte) {i n : ℕ} (h : i + n ≤ 4) :
    handleEventLoop .idK modern old oldest rotor0 (knobA i) (knobB i) (BitVec.ofNat 8 i) n =
      knobCalls (List.range' i n) (BitVec.ofNat 8) oldest old modern := by
  induction n generalizing i with
  | zero => rfl
  | succ n ih =>
    have hi : i < 4 := by omega
    have hrest := ih (i := i + 1) (by omega)
    have hid : BitVec.ofNat 8 i + 1 = BitVec.ofNat 8 (i + 1) := (BitVec.ofNat_add i 1).symm
    have hshift : BitVec.ofNat 8 i + rotor0 = BitVec.ofNat 8 i := BitVec.add_zero _
    obtain ⟨hoa, hob, -⟩ := knob_bits hi old
    obtain ⟨hta, htb, -⟩ := knob_bits hi oldest
    obtain ⟨-, -, hm⟩ := knob_bits hi modern
    rw [handleEventLoop, (knob_succ i).1, (knob_succ i).2, hid, hrest, List.range'_succ]
    simp only [hoa, hob, hta, htb, hm, hshift, knobCalls, List.filterMap_cons, knobTurn, turn,
      Bool.and_eq_true, reduceCtorEq, if_false]
    split_ifs <;> rfl

theorem handleEvent_idK (modern old oldest : Byte) :
    handleEvent .idK modern old oldest =
      knobCalls (List.range 4) (BitVec.ofNat 8) oldest old modern :=
  handleEventLoop_idK modern old oldest (le_refl (0 + 4))

/-- A sample of port J has the bits of one knob. -/
theorem handleEvent_idJ {modern old oldest : Byte} (hmodern : modern ≤ maskJ) (hold : old ≤ maskJ)
    (holdest : oldest ≤ maskJ) :
    handleEvent .idJ modern old oldest = knobCalls [0] (fun _ => rotor4) oldest old modern := by
  have hall : ∀ x : Byte, x ≤ maskJ → ∀ y : Byte, y ≤ maskJ → ∀ z : Byte, z ≤ maskJ →
      handleEvent .idJ x y z = knobCalls [0] (fun _ => rotor4) z y x := by
    decide +kernel
  exact hall modern hmodern old hold oldest holdest

/-- Whatever is in the queue of port J, the calls are not for a knob of port K. -/
theorem handleEventLoop_idJ_id (modern old oldest : Byte) {i n : ℕ} (h : i + n ≤ 4) (a b : Byte) :
    ∀ c ∈ handleEventLoop .idJ modern old oldest rotor4 a b (BitVec.ofNat 8 i) n,
      rotor4 ≤ c.id := by
  induction n generalizing i a b with
  | zero => exact fun c hc => absurd hc List.not_mem_nil
  | succ n ih =>
    have hid : BitVec.ofNat 8 i + 1 = BitVec.ofNat 8 (i + 1) := (BitVec.ofNat_add i 1).symm
    have hrest := ih (i := i + 1) (by omega) (a <<< 2) (b <<< 2)
    have hhere : rotor4 ≤ BitVec.ofNat 8 i + rotor4 := by
      unfold rotor4
      bv_omega
    rw [handleEventLoop, hid]
    intro c hc
    simp only [if_true] at hc
    split_ifs at hc with hmodern hclock hcounter
    · rw [List.mem_singleton.mp hc]
      exact hhere
    · rw [List.mem_singleton.mp hc]
      exact hhere
    · exact absurd hc List.not_mem_nil
    · exact hrest c hc

theorem handleEvent_idJ_id (modern old oldest : Byte) :
    ∀ c ∈ handleEvent .idJ modern old oldest, rotor4 ≤ c.id :=
  handleEventLoop_idJ_id modern old oldest (le_refl (0 + 4)) maskA maskB

/-! ### A queue -/

/-- `handle_event` as a recogniser of windows, the oldest sample first. -/
def recognise (source : QueueId) (oldest old modern : Byte) : List RotorCall :=
  handleEvent source modern old oldest

theorem queueDrain_eq {buf : Buf} (h : buf.Valid) {n : ℕ} (hn : n ≤ buf.count) :
    (queueDrain buf n).Valid ∧ (queueDrain buf n).contents = buf.contents.drop n := by
  induction n generalizing buf with
  | zero => exact ⟨h, rfl⟩
  | succ n ih =>
    cases hc : buf.contents with
    | nil =>
      rw [← contents_length, hc, List.length_nil] at hn
      omega
    | cons x rest =>
      obtain ⟨-, hrest⟩ := byteDrain_cons h hc
      have hcount : n ≤ (ringByteDrain buf).1.count := by
        rw [← contents_length, hc, List.length_cons] at hn
        rw [← contents_length, hrest]
        omega
      have hdrained := ih (byteDrain_valid h) hcount
      rw [hrest] at hdrained
      exact hdrained

theorem queueHead_short {buf : Buf} (h : buf.count < 3) : queueHead buf = none := if_pos h

theorem queueHead_eq {buf : Buf} (h : buf.Valid) {oldest old modern : Byte} {rest : List Byte}
    (hc : buf.contents = oldest :: old :: modern :: rest) :
    queueHead buf = some (oldest, old, modern) := by
  have hlong : ¬ bufSize buf < 3 := by
    have hcount : buf.count = rest.length + 3 := by rw [← contents_length, hc]; rfl
    have hsize : (bufSize buf).toNat = buf.count := rfl
    bv_omega
  unfold queueHead
  rw [if_neg hlong, bufByteGet, bufByteGet, bufByteGet, byteGet_eq h, byteGet_eq h, byteGet_eq h,
    hc]
  rfl

/-- A try looks at the window in front and leaves what is behind it. -/
theorem tryQueue_eq {buf : Buf} (h : buf.Valid) (source : QueueId) :
    (tryQueue buf source).1.Valid ∧
      (tryQueue buf source).1.contents = next (recognise source) buf.contents ∧
      (tryQueue buf source).2 = front (recognise source) buf.contents := by
  by_cases hshort : buf.contents.length < 3
  · obtain ⟨-, hfront, hnext⟩ := short_eq (f := recognise source) hshort
    rw [contents_length] at hshort
    rw [tryQueue, queueHead_short hshort, hfront, hnext]
    exact ⟨h, rfl, rfl⟩
  · obtain ⟨oldest, old, modern, rest, hc⟩ := exists_window hshort
    have hcount : buf.count = rest.length + 3 := by rw [← contents_length, hc]; rfl
    rw [tryQueue, queueHead_eq h hc, hc]
    dsimp only
    cases hcalls : (handleEvent source modern old oldest).isEmpty with
    | true =>
      obtain ⟨hvalid, hrest⟩ := queueDrain_eq h (n := 1) (by omega)
      refine ⟨hvalid, ?_, rfl⟩
      rw [next, recognise, hcalls, if_pos rfl, if_pos rfl, hrest, hc]
      rfl
    | false =>
      obtain ⟨hvalid, hrest⟩ := queueDrain_eq h (n := 3) (by omega)
      refine ⟨hvalid, ?_, rfl⟩
      rw [next, recognise, hcalls, if_neg Bool.false_ne_true, if_neg Bool.false_ne_true, hrest, hc]
      rfl

end LedServer.Avr
