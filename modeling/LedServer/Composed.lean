import LedServer.AvrSignals
import LedServer.FrameReader
import LedServer.McuHandle
import LedServer.PiHandleStep

set_option autoImplicit false

/-!
# The two machines together

The AVR, the threads of the daemon and the shell commands. A transfer puts one byte
after the other on the wire, and each brings back what the AVR has in `SPDR`. The
queues of `mcu_handle_t` are those of `handle_t`.
-/
namespace LedServer
open LedServer.Pi LedServer.Mcu

/-- The queues of `pi` are not looked at, `handle` has them. `running` are the
commands taken off the queue. `goodbye` keeps whether a POWEROFF status has been
handled, `terminated` whether the daemon is not running. -/
structure Composed where
  avr : Avr.Cpu
  pi : McuHandle
  handle : Handle
  running : List Command
  goodbye : Bool
  terminated : Bool

/-- What the AVR does besides `decode_try`. -/
inductive AvrEvent where
  | postponeTry
  | rotor (id action : Byte)
  | expire (id : Avr.AtId)
  | flushTick
  | heartbeatTick
  | int2

def AvrEvent.hold : AvrEvent → Avr.HoldEvent
  | .postponeTry => .postponeTry
  | .rotor id action => .rotor id action
  | .expire id => .expire id
  | .flushTick => .flushTick
  | .heartbeatTick => .heartbeatTick
  | .int2 => .int2

inductive ComposedEvent where
  | avr (e : AvrEvent)
  | decodeStep
  | exchange
  | pi
  | interrupt (rised : Bool)
  | handleMcu
  | handleStatus
  | execute
  | complete (i : ℕ) (value : ℤ) (out : Text)
  | timeout (i : ℕ)
  | line (id : CommandId) (out : Text)
  | restart (trackRegexList : List (Text → Option Text)) (firstByte : Byte)

/-- An interrupt comes anywhere, the rest when `decode_try` has returned. -/
def Composed.stepAvr (c : Avr.Cpu) : AvrEvent → Avr.Cpu
  | .int2 => { c with state := Avr.holdStep c.state .int2 }
  | e => Avr.outside c fun s => Avr.holdStep s e.hold

/-- The state in which the next access of `decode_try` invokes `decode`. -/
def Avr.invoked (c : Avr.Cpu) : Option Avr.State :=
  if c.pc = .readPayload then
    match Avr.readPayload c.state with
    | (s, true) => some s
    | (_, false) => none
  else none

namespace Composed

/-- `mcu_handle_t` with its queues. -/
def mcu (t : Composed) : McuHandle :=
  { t.pi with toQueue := t.handle.toMcuQueue, fromQueue := t.handle.fromMcuQueue }

def withMcu (t : Composed) (m : McuHandle) : Composed :=
  { t with
    pi := m
    handle := { t.handle with toMcuQueue := m.toQueue, fromMcuQueue := m.fromQueue } }

/-- The messages that the parser will find in what the AVR has sent: the bytes
brought back, the one in `SPDR` and those in `write_buf`. -/
def inFlight (t : Composed) : List (List Byte) :=
  (parse t.pi.parseBuf
    (t.pi.inn ++ t.avr.state.link.spdr :: t.avr.state.link.writeBuf.contents)).2

/-- All that `handle_mcu` has still to see. -/
def up (t : Composed) : List (List Byte) := t.handle.fromMcuQueue ++ t.inFlight

/-- The messages `decode` has still to see of those that `mcu_handle_t` has taken:
what is in `read_buf` and what is to be put on the wire. -/
def down (t : Composed) : List (List Byte) :=
  (FrameReader.readFrom (Avr.phaseOf t.avr.state.decoder)
    (t.avr.state.link.readBuf.contents ++ t.pi.out)).2.map Message.body

def pushStatus (t : Composed) (status : Status) : Composed :=
  { t with handle := { t.handle with statusQueue := t.handle.statusQueue ++ [status] } }

/-- The next part of `start` of `mcu_handle_t`. -/
def stepMcu (t : Composed) : Composed :=
  let m := mcuStep t.mcu
  if m.thrown = true then { t with terminated := true } else t.withMcu m

/-- `start` of `handle_t` takes a message. -/
def popMcu (t : Composed) : Composed :=
  match t.handle.fromMcuQueue with
  | [] => t
  | msg :: rest =>
    match handleMcu { t.handle with fromMcuQueue := rest } msg with
    | none => { t with terminated := true }
    | some handle => { t with handle := handle }

/-- `start` of `handle_t` takes a status. -/
def popStatus (t : Composed) : Composed :=
  match t.handle.statusQueue with
  | [] => t
  | status :: rest =>
    let t := { t with goodbye := t.goodbye || status.id = CommandId.poweroff }
    match handleStatus { t.handle with statusQueue := rest } status with
    | none => { t with terminated := true }
    | some handle => { t with handle := handle }

/-- What the daemon does, with the shell commands and the wire. -/
def piStep (t : Composed) : ComposedEvent → Composed
  | .exchange =>
    match t.pi.out with
    | [] => t
    | b :: _ =>
      { t with
        avr := Avr.exchangeStep t.avr b
        pi := transferByte t.pi t.avr.state.link.spdr }
  | .pi => stepMcu t
  | .interrupt rised =>
    { t with pi := { t.pi with interruptQueue := t.pi.interruptQueue ++ [rised] } }
  | .handleMcu => popMcu t
  | .handleStatus => popStatus t
  | .execute =>
    match t.handle.commandQueue with
    | [] => t
    | command :: rest =>
      { t with
        handle := { t.handle with commandQueue := rest }
        running := t.running ++ [command] }
  | .complete i value out =>
    match t.running[i]? with
    | none => t
    | some command =>
      { t with running := t.running.eraseIdx i }.pushStatus ⟨command.id, value, out⟩
  | .timeout i =>
    match t.running[i]? with
    | none => t
    | some command => t.pushStatus ⟨command.id, Status.timeout, []⟩
  | .line id out => if id.stream = true then t.pushStatus ⟨id, Status.good, out⟩ else t
  | _ => t

end Composed

open Composed in
def composedStep (t : Composed) : ComposedEvent → Composed
  | .avr e => { t with avr := stepAvr t.avr e }
  | .decodeStep => { t with avr := Avr.decodeStep t.avr }
  -- a new daemon, which raises INT3
  | .restart trackRegexList firstByte =>
    { avr := { t.avr with state := Avr.int3Vect t.avr.state }
      pi := mcuHandleInit
      handle := handleInit trackRegexList firstByte
      running := []
      goodbye := false
      terminated := false }
  | e => if t.terminated = true then t else piStep t e

/-- The AVR is powered on, the daemon not yet started. -/
def composedInit : Composed where
  avr := ⟨Avr.init, .idle⟩
  pi := mcuHandleInit
  handle := handleInit [] 0
  running := []
  goodbye := false
  terminated := true

/-- No byte gets lost. One that comes finds a free cell in `read_buf`, does not fill
it to capacity behind a positive start, and is not taken for another field of a header
that INT3 has reset; a new daemon does not find the beginning of an old frame in `SPDR`. -/
def Clear (t : Composed) : ComposedEvent → Prop
  | .exchange => t.pi.out ≠ [] → AvrRing.KeepsByte t.avr.state.link.readBuf ∧
      (t.avr.pc = .idle ∨ t.avr.pc = Avr.nextPc t.avr.state.decoder.decoded)
  | .restart _ _ => t.avr.state.link.spdr ≠ eyeCatch
  | _ => True

instance (t : Composed) (e : ComposedEvent) : Decidable (Clear t e) :=
  match e with
  | .exchange => inferInstanceAs (Decidable (_ → _))
  | .restart _ _ => inferInstanceAs (Decidable (_ ≠ _))
  | .avr _ | .decodeStep | .pi | .interrupt _ | .handleMcu | .handleStatus | .execute
  | .complete _ _ _ | .timeout _ | .line _ _ => .isTrue trivial

end LedServer
