import LedServer.AvrScreen
import LedServer.RegisterQueue
import LedServer.TwiPreempted
import LedServer.TwiSuccess

set_option autoImplicit false

/-!
# The clock behind the TWI

`watch.c` on top of `twi.c`, and the chip on the other end of the bus: registers
behind a pointer, which the first byte written sets and every other byte moves on.
-/
namespace LedServer.Avr
open AvrRing AvrTwi Machine

inductive ChipPhase where
  | idle | started | addressed | storing | sending
deriving DecidableEq, Repr

/-- A chip at `RTC_ADDRESS`. `out` is the byte it has last put on the bus, `tick` what
it does on its own account, `next` the order of its registers. -/
structure RegisterChip (σ : Type) where
  step : σ → BusEvent → σ
  tick : σ → σ
  phase : σ → ChipPhase
  pointer : σ → Byte
  regs : σ → Byte → Byte
  out : σ → Byte
  next : Byte → Byte
  start (s : σ) : phase (step s .start) = .started ∧ pointer (step s .start) = pointer s ∧
    regs (step s .start) = regs s
  stop (s : σ) : regs (step s .stop) = regs s
  addressed (s : σ) : phase s = .started →
    phase (step s (.write (rtcAddress <<< 1))) = .addressed ∧
      regs (step s (.write (rtcAddress <<< 1))) = regs s
  sends (s : σ) : phase s = .started →
    phase (step s (.write (rtcAddress <<< 1 ||| 1))) = .sending ∧
      pointer (step s (.write (rtcAddress <<< 1 ||| 1))) = pointer s ∧
      regs (step s (.write (rtcAddress <<< 1 ||| 1))) = regs s
  points (s : σ) (byte : Byte) : phase s = .addressed →
    phase (step s (.write byte)) = .storing ∧ pointer (step s (.write byte)) = byte ∧
      regs (step s (.write byte)) = regs s
  stores (s : σ) (byte : Byte) : phase s = .storing →
    phase (step s (.write byte)) = .storing ∧ pointer (step s (.write byte)) = next (pointer s) ∧
      regs (step s (.write byte)) = Function.update (regs s) (pointer s) byte
  fetches (s : σ) : phase s = .sending →
    phase (step s .read) = .sending ∧ pointer (step s .read) = next (pointer s) ∧
      regs (step s .read) = regs s ∧ out (step s .read) = regs s (pointer s)
  ticks (s : σ) : phase (tick s) = phase s ∧ pointer (tick s) = pointer s ∧ out (tick s) = out s

/-- `picture` is the last one `render` of `watch.c` has made. -/
structure Clock (σ : Type) where
  twi : Twi
  chip : σ
  watch : Watch
  picture : Option Buf

/-- A check that `TWI_vect` passes tells that the chip has taken its part. -/
inductive ClockEvent where
  | call (request : TwiRequest)
  | twiTry
  | vect (twsr : Byte)
  | tick

section

variable {σ : Type} (chip : RegisterChip σ)

/-- The callback `twi_try` calls. -/
def Clock.callback (c : Clock σ) (report : Option TwiReport) : Clock σ :=
  let result := watchCallback c.watch report
  { c with watch := result.1, picture := result.2.or c.picture }

def clockStep (c : Clock σ) : ClockEvent → Clock σ
  | .call request => { c with twi := (twiCall c.twi request).1 }
  | .twiTry =>
    let result := twiTry c.twi
    { c with
      twi := result.1
      chip := if Dequeues c.twi then chip.step c.chip (busEvent result.1) else c.chip
    }.callback result.2
  | .vect twsr =>
    -- no interrupt behind a stop
    if c.twi.mode = .idle then c
    else
      let twi := twiVect c.twi twsr (chip.out c.chip)
      { c with twi := twi, chip := chip.step c.chip (busEvent twi) }
  | .tick => { c with chip := chip.tick c.chip }

/-- After `twi_init` and the `twi_slave_r` of `watch_init`. -/
def clockStart (s : σ) : Clock σ where
  twi := { twiInit with mAddress := twiInit.mAddress.set twiIdRtc.toNat rtcAddress }
  chip := s
  watch := watchZero
  picture := none

/-- The requests of `watch_set`, `watch_enable` and `watch_disable`. -/
def setRequest (hour minute second : Byte) : TwiRequest :=
  .write twiIdRtc 0 regSecond [rtcTo second 59, rtcTo minute 59, rtcTo hour 23]

def enableRequest : TwiRequest := .write twiIdRtc 0 regEnable [regValueEnable]

def disableRequest : TwiRequest := .write twiIdRtc 0 regEnable [regValueDisable]

theorem call_twi (c : Clock σ) (request : TwiRequest) :
    (clockStep chip c (.call request)).twi = (twiCall c.twi request).1 := rfl

theorem clock_calls (c : Clock σ) (hour minute second : Byte) :
    (clockStep chip c (.call (setRequest hour minute second))).twi =
        watchSet c.twi hour minute second ∧
      (clockStep chip c (.call enableRequest)).twi = watchEnable c.twi ∧
      (clockStep chip c (.call disableRequest)).twi = watchDisable c.twi ∧
      (run (clockStep chip) c (clockReads.map .call)).twi = int2Vect c.twi := by
  have hlength : BitVec.ofNat 8 [rtcTo second 59, rtcTo minute 59, rtcTo hour 23].length =
      epochSize := rfl
  refine ⟨?_, rfl, rfl, ?_⟩
  · rw [call_twi, setRequest, twiCall, hlength]
    rfl
  · simp only [clockReads, List.map_cons, List.map_nil, run_cons, run_nil, call_twi, twiCall]
    rfl

/-! ### The transfers -/

/-- A request as one for registers. -/
def registerRequest (request : TwiRequest) : RegisterQueue.Request Byte Byte Byte :=
  match request with
  | .write _ _ reg data => .write reg data
  | .read _ tag reg len => .read tag reg len.toNat

/-- `read_callback` of what a transaction has received: `buffer` and the picture. -/
def received (shown : Watch × Option Buf) (tag : Byte) (got : List Byte) : Watch × Option Buf :=
  let result := readCallback shown.1 tag .success (BitVec.ofNat 8 got.length) got
  (result.1, result.2.or shown.2)

/-- The interrupt has another value sent or asked for. -/
def Moves (t t' : Twi) : Prop :=
  (t.mode = .writeReg ∨ t.mode = .writeValue ∨ t.mode = .readRestartSlave ∨ t.mode = .readValue) ∧
    t'.mode ≠ .idle

instance (t t' : Twi) : Decidable (Moves t t') := inferInstanceAs (Decidable (_ ∧ _))

/-- What a step of the clock is to the transfers. -/
def transfers (c : Clock σ) : ClockEvent → List (RegisterQueue.Event Byte Byte Byte)
  | .call request => if (twiCall c.twi request).2 then [.request (registerRequest request)] else []
  | .twiTry =>
    if Dequeues c.twi then [.begin]
    else match (twiTry c.twi).2 with
      | some report => [.finish (report.status = .success)]
      | none => []
  | .vect twsr =>
    if c.twi.mode ≠ .idle ∧ Moves c.twi (twiVect c.twi twsr (chip.out c.chip)) then [.byte] else []
  | .tick => [.tick (chip.regs (chip.tick c.chip))]

end

end LedServer.Avr
