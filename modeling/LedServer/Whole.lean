import LedServer.AvrDumps
import LedServer.InfoGiven
import LedServer.JoinedColumns

set_option autoImplicit false

/-!
# From a status to the display

`handle_t`, `mcu_handle_t` and the AVR on one wire. A status comes in when
`handle_t` takes it; what it pushes is the queue `mcu_handle_t` sends from, and
what that has parsed is the queue it takes messages from.
-/
namespace LedServer
open Machine Mcu LedServer.Pi
open Avr (MainEvent)
open AvrRing (Buffer)

/-- `taken` counts the messages `handle_t` has taken, `terminated` keeps whether an
exception has left it. The rest is what has been: the texts given out by the
content, the system texts it was given, the dumps in shift mode. -/
structure Whole where
  avr : Avr.Cpu
  pi : McuHandle
  handle : Handle
  taken : ℕ
  terminated : Bool
  given : List (Source × Text)
  arrived : List Text
  dumps : List Buffer

inductive WholeEvent where
  | main (e : MainEvent)
  | exchange
  | pi
  | interrupt (rised : Bool)
  | handleMcu
  | handleStatus (status : Status)

namespace Whole

def joined (t : Whole) : Joined := ⟨t.avr, t.pi⟩

/-- Only the two machines on the wire have moved. -/
def withJoined (t : Whole) (j : Joined) : Whole := { t with avr := j.avr, pi := j.pi }

/-- `handle_t` with the queue it pushes to. -/
def current (t : Whole) : Handle := { t.handle with toMcuQueue := t.pi.toQueue }

def keep (t : Whole) (h : Handle) (given : List (Source × Text)) (arrived : List Text) : Whole :=
  { t with
    handle := h
    pi := { t.pi with toQueue := h.toMcuQueue }
    given := t.given ++ given
    arrived := t.arrived ++ arrived }

def popMcu (t : Whole) : Whole :=
  match t.pi.fromQueue[t.taken]? with
  | none => t
  | some msg =>
    let t := { t with taken := t.taken + 1 }
    match handleMcu t.current msg with
    | none => { t with terminated := true }
    | some h => t.keep h (mcuTakes t.current msg) []

def popStatus (t : Whole) (status : Status) : Whole :=
  match Pi.handleStatus t.current status with
  | none => { t with terminated := true }
  | some h => t.keep h [] (systemLine status)

def daemonStep (t : Whole) : WholeEvent → Whole
  | .exchange => t.withJoined (joinedStep t.joined .exchange)
  | .pi => t.withJoined (joinedStep t.joined .pi)
  | .interrupt rised => t.withJoined (joinedStep t.joined (.interrupt rised))
  | .handleMcu => t.popMcu
  | .handleStatus status => t.popStatus status
  | .main _ => t

end Whole

def wholeStep (t : Whole) : WholeEvent → Whole
  | .main e =>
    { t.withJoined (joinedStep t.joined (.main e)) with
      dumps := t.dumps ++ Avr.dumped t.avr e }
  | e => if t.terminated = true then t else t.daemonStep e

/-- A new daemon, the AVR outside `decode_try`. -/
def wholeStart (s : Avr.State) (trackRegexList : List (Text → Option Text)) (firstByte : Byte) :
    Whole where
  avr := ⟨s, .idle⟩
  pi := mcuHandleInit
  handle := handleInit trackRegexList firstByte
  taken := 0
  terminated := false
  given := []
  arrived := []
  dumps := []

/-- The byte does not fill `read_buf` to capacity. -/
def WholeBelow (t : Whole) : WholeEvent → Prop
  | .exchange => ReadBelow t.joined .exchange
  | _ => True

instance (t : Whole) : (e : WholeEvent) → Decidable (WholeBelow t e)
  | .exchange => inferInstanceAs (Decidable (ReadBelow t.joined .exchange))
  | .main _ => .isTrue trivial
  | .pi => .isTrue trivial
  | .interrupt _ => .isTrue trivial
  | .handleMcu => .isTrue trivial
  | .handleStatus _ => .isTrue trivial

/-! ### The invariant -/

theorem ledColumns_pushedOf (ms : List Message) : ledColumns (pushedOf ms) = ledColumns ms := by
  induction ms with
  | nil => rfl
  | cons m ms ih =>
    by_cases hidle : m.id = msgIdIdle
    · have hskip : pushedOf (m :: ms) = pushedOf ms :=
        List.filter_cons_of_neg (by simp [hidle])
      have hother : m.id ≠ msgIdLedArray := by
        rw [hidle]
        decide
      rw [hskip, ledColumns_other hother, ih]
    · have hkeep : pushedOf (m :: ms) = m :: pushedOf ms :=
        List.filter_cons_of_pos (by simpa using hidle)
      rw [hkeep]
      by_cases hled : m.id = msgIdLedArray
      · rw [ledColumns_cons hled, ledColumns_cons hled, ih]
      · rw [ledColumns_other hled, ledColumns_other hled, ih]

/-- `decoded` are the messages decoded since `s`, `sent` those pushed. -/
structure Conveys (s : Avr.State) (firstByte : Byte) (t : Whole) (sent decoded : List Message) :
    Prop where
  fills : ∃ ahead made got ups rest tail held queued,
    Fills s sent t.joined decoded ahead made got ups rest tail held queued
  columns : ledColumns sent = (pixelize firstByte (runningText t.given)).2
  firstByte : t.handle.firstByte = (pixelize firstByte (runningText t.given)).1
  lines : givenFrom .middle t.given ++ t.handle.content.middleInfo = t.arrived
  unfurled : Avr.Unfurled t.avr.state

section Steps

variable {s : Avr.State} {firstByte : Byte} {t : Whole} {sent decoded : List Message}

theorem Conveys.calls (h : Conveys s firstByte t sent decoded) :
    t.avr.state.decoder.calls = s.decoder.calls ++ decoded := by
  obtain ⟨_, _, _, _, _, _, _, _, hfills⟩ := h.fills
  exact hfills.carries.calls

theorem Conveys.readValid (h : Conveys s firstByte t sent decoded) :
    t.avr.state.link.readBuf.Valid := by
  obtain ⟨_, _, _, _, _, _, _, _, hfills⟩ := h.fills
  exact hfills.carries.reads.valid

/-- What is decoded is the first part of what has been pushed. -/
theorem Conveys.prefix (h : Conveys s firstByte t sent decoded) :
    ledColumns decoded <+: (pixelize firstByte (runningText t.given)).2 := by
  obtain ⟨ahead, _, _, _, _, _, _, queued, hfills⟩ := h.fills
  refine ⟨ledColumns ahead ++ ledColumns (queued.map Push.message), ?_⟩
  rw [← h.columns, ← hfills.order, ledColumns_append, ledColumns_append, ledColumns_pushedOf,
    ledColumns_pushedOf, List.append_assoc]

/-- The pushes of a step of `handle_t`, one after the other. -/
theorem Fills.pushAll {j : Joined} {ahead made got ups rest : List Message} {tail : List Byte}
    {held : Option Message} {queued : List Push}
    (h : Fills s sent j decoded ahead made got ups rest tail held queued) (ps : List Push) :
    Fills s (sent ++ ps.map Push.message)
      ⟨j.avr, { j.pi with toQueue := j.pi.toQueue ++ ps.map fun p => p.message.body }⟩
      decoded ahead made got ups rest tail held (queued ++ ps) := by
  refine { h with
    carries := { h.carries with queue := fun msg hm => ?_ }
    queue := ?_
    order := ?_ }
  · rcases List.mem_append.mp hm with hm | hm
    · exact h.carries.queue msg hm
    · obtain ⟨p, -, rfl⟩ := List.mem_map.mp hm
      exact ⟨p, rfl⟩
  · rw [List.map_append, ← h.queue]
  · rw [List.map_append, ← List.append_assoc, h.order]

/-- A step of the two machines on the wire. -/
theorem Conveys.wire (h : Conveys s firstByte t sent decoded) {e : JoinedEvent}
    (hbelow : ReadBelow t.joined e) (hpushes : pushes [e] = [])
    (hunfurled : Avr.Unfurled (joinedStep t.joined e).avr.state) (dumps : List Buffer) :
    ∃ decoded', Conveys s firstByte
      { t.withJoined (joinedStep t.joined e) with dumps := dumps } sent decoded' := by
  obtain ⟨_, _, _, _, _, _, _, _, hfills⟩ := h.fills
  obtain ⟨decoded', _, _, _, _, _, _, _, _, hstep⟩ := hfills.step hbelow
  rw [hpushes, List.append_nil] at hstep
  exact ⟨decoded', ⟨_, _, _, _, _, _, _, _, hstep⟩, h.columns, h.firstByte, h.lines, hunfurled⟩

theorem exchange_flush (j : Joined) :
    (joinedStep j .exchange).avr.state.flush = j.avr.state.flush ∧
      (joinedStep j .exchange).avr.state.menu = j.avr.state.menu := by
  unfold joinedStep
  dsimp only
  split <;> exact ⟨rfl, rfl⟩

/-- A step of `handle_t`. -/
theorem Conveys.keep (h : Conveys s firstByte t sent decoded) {handle : Handle}
    {given : List (Source × Text)} {arrived : List Text}
    (hgives : Gives t.current handle given arrived) :
    ∃ sent', Conveys s firstByte (t.keep handle given arrived) sent' decoded := by
  obtain ⟨_, _, _, _, _, _, _, _, hfills⟩ := h.fills
  obtain ⟨ps, hqueue, hcolumns⟩ := hgives.pushed
  have hfirst : t.current.firstByte = _ := h.firstByte
  have hpushed := hfills.pushAll ps
  have hqueue' : handle.toMcuQueue = t.joined.pi.toQueue ++ ps.map fun p => p.message.body := hqueue
  rw [← hqueue'] at hpushed
  refine ⟨sent ++ ps.map Push.message, ⟨_, _, _, _, _, _, _, _, hpushed⟩, ?_, ?_, ?_, h.unfurled⟩
  · show _ = (pixelize firstByte (runningText (t.given ++ given))).2
    rw [ledColumns_append, h.columns, hcolumns, hfirst, runningText_append, pixelize_append]
  · show handle.firstByte = (pixelize firstByte (runningText (t.given ++ given))).1
    rw [hgives.firstByte, hfirst, runningText_append, pixelize_append]
  · show givenFrom .middle (t.given ++ given) ++ handle.content.middleInfo = t.arrived ++ arrived
    have hmiddle : givenFrom .middle given ++ handle.content.middleInfo =
        t.handle.content.middleInfo ++ arrived := hgives.middle
    rw [givenFrom_append, List.append_assoc, hmiddle, ← List.append_assoc, h.lines]

theorem Conveys.popMcu (h : Conveys s firstByte t sent decoded) :
    ∃ sent', Conveys s firstByte t.popMcu sent' decoded := by
  have htaken : ∀ terminated, Conveys s firstByte
      { t with taken := t.taken + 1, terminated := terminated } sent decoded := fun _ =>
    ⟨h.fills, h.columns, h.firstByte, h.lines, h.unfurled⟩
  unfold Whole.popMcu
  split
  · exact ⟨sent, h⟩
  · dsimp only
    split
    · exact ⟨sent, htaken true⟩
    · rename_i handle hhandle
      exact (htaken t.terminated).keep (handleMcu_gives hhandle)

theorem Conveys.popStatus (h : Conveys s firstByte t sent decoded) (status : Status) :
    ∃ sent', Conveys s firstByte (t.popStatus status) sent' decoded := by
  unfold Whole.popStatus
  split
  · exact ⟨sent, ⟨h.fills, h.columns, h.firstByte, h.lines, h.unfurled⟩⟩
  · rename_i handle hhandle
    exact h.keep (handleStatus_gives hhandle)

theorem Conveys.daemonStep (h : Conveys s firstByte t sent decoded) {e : WholeEvent}
    (hbelow : WholeBelow t e) :
    ∃ sent' decoded', Conveys s firstByte (t.daemonStep e) sent' decoded' := by
  cases e with
  | main e => exact ⟨sent, decoded, h⟩
  | exchange =>
    have hunfurled : Avr.Unfurled (joinedStep t.joined .exchange).avr.state := by
      obtain ⟨hflush, hmenu⟩ := exchange_flush t.joined
      unfold Avr.Unfurled
      rw [hflush, hmenu]
      exact h.unfurled
    exact ⟨sent, h.wire (e := .exchange) hbelow rfl hunfurled t.dumps⟩
  | pi => exact ⟨sent, h.wire (e := .pi) trivial rfl h.unfurled t.dumps⟩
  | interrupt rised =>
    exact ⟨sent, h.wire (e := .interrupt rised) trivial rfl h.unfurled t.dumps⟩
  | handleMcu =>
    obtain ⟨sent', hpop⟩ := h.popMcu
    exact ⟨sent', decoded, hpop⟩
  | handleStatus status =>
    obtain ⟨sent', hpop⟩ := h.popStatus status
    exact ⟨sent', decoded, hpop⟩

theorem Conveys.step (h : Conveys s firstByte t sent decoded) {e : WholeEvent}
    (hbelow : WholeBelow t e) :
    ∃ sent' decoded', Conveys s firstByte (wholeStep t e) sent' decoded' := by
  cases e with
  | main e =>
    have hturned := Avr.mainStep_turned h.readValid h.unfurled e
    exact ⟨sent, h.wire (e := .main e) trivial rfl hturned.unfurled _⟩
  | _ =>
    unfold wholeStep
    dsimp only
    split
    · exact ⟨sent, decoded, h⟩
    · exact h.daemonStep hbelow

end Steps

/-- What a start has to be: nothing on the wire, `shift_data` empty. -/
structure Blank (s : Avr.State) : Prop where
  fresh : Fresh s
  valid : s.flush.shiftData.Valid
  empty : s.flush.shiftData.contents = []
  unfurled : Avr.Unfurled s

theorem Blank.conveys {s : Avr.State} (hs : Blank s)
    (trackRegexList : List (Text → Option Text)) (firstByte : Byte) :
    Conveys s firstByte (wholeStart s trackRegexList firstByte) [] [] := by
  have hroomy : Roomy s.flush none := by
    have hcount : s.flush.shiftData.count = 0 := by
      rw [← AvrRing.contents_length, hs.empty]
      rfl
    exact ⟨hs.valid, fun _ => by omega, by omega⟩
  obtain ⟨greeting, hcarries⟩ := hs.fresh.carries
  exact ⟨⟨[], [], [], [], greeting, [], none, [], hcarries,
    ⟨[], (List.append_nil _).symm, rfl, by simp, (List.append_nil _).symm⟩,
    hroomy, by simp, rfl, rfl⟩, rfl, rfl, rfl, hs.unfurled⟩

theorem conveys_run {s : Avr.State} (hs : Blank s)
    {trackRegexList : List (Text → Option Text)} {firstByte : Byte} {es : List WholeEvent}
    (h : Along wholeStep WholeBelow (wholeStart s trackRegexList firstByte) es) :
    ∃ sent decoded, Conveys s firstByte
      (run wholeStep (wholeStart s trackRegexList firstByte) es) sent decoded := by
  induction es using List.reverseRecOn with
  | nil => exact ⟨[], [], hs.conveys trackRegexList firstByte⟩
  | append_singleton es e ih =>
    obtain ⟨hes, he, -⟩ := (along_append ..).mp h
    obtain ⟨_, _, hconveys⟩ := ih hes
    rw [run_append]
    exact hconveys.step he

end LedServer
