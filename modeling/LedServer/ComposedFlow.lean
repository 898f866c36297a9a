import LedServer.ComposedChannels

set_option autoImplicit false

/-!
# What a step of the composed system keeps
-/
namespace LedServer
open LedServer.Pi LedServer.Mcu
open Avr (HasRead decodedMessage)

/-- The flags of the AVR have their owners, both channels carry whole messages, and
outside a transfer nothing is on the wire. -/
structure ComposedSound (t : Composed) : Prop where
  hold : Avr.HoldSound t.avr.state
  flag : Avr.FlagSound t.avr.state
  upward : ∃ msgs, Upward t.avr.state.link t.pi.parseBuf t.pi.inn msgs
  listens : ∃ downs, Avr.Listens t.avr t.pi.out downs
  queue : ∀ msg ∈ t.handle.toMcuQueue, ∃ p : Push, msg = p.message.body
  still : (∀ back, t.pi.pc ≠ .transfer back) → t.pi.out = [] ∧ t.pi.inn = []
  thrown : t.pi.thrown = false

theorem Composed.up_eq {t : Composed} {msgs : List Message}
    (h : Upward t.avr.state.link t.pi.parseBuf t.pi.inn msgs) :
    t.up = t.handle.fromMcuQueue ++ msgs.map Message.body :=
  congrArg (t.handle.fromMcuQueue ++ ·) h.inFlight

theorem Composed.down_eq {t : Composed} {downs : List Message}
    (h : Avr.Listens t.avr t.pi.out downs) : t.down = downs.map Message.body :=
  congrArg (List.map Message.body) h.stream

/-! ### A step of the AVR -/

namespace Avr

theorem HasRead.hold {s s' : State} (h : HasRead s s') (hs : HoldSound s) : HoldSound s' := by
  obtain ⟨readBuf, d, -, rfl⟩ := h
  exact ⟨hs.wired.of_eq rfl, hs.panel⟩

theorem HasRead.flag {s s' : State} (h : HasRead s s') (hs : FlagSound s) : FlagSound s' := by
  obtain ⟨readBuf, d, -, rfl⟩ := h
  exact hs.of_same (.inl rfl) rfl

end Avr

/-- The AVR takes a step of `holdStep`, with what it may have read before. -/
structure AvrMoves (t t' : Composed) (s : Avr.State) (e : Avr.HoldEvent) : Prop where
  read : HasRead t.avr.state s
  avr : t'.avr.state = Avr.holdStep s e
  does : ∀ sent held, Avr.Flows s.link sent held → Avr.Does s (Avr.holdStep s e) sent held
  rest : t' = { t with avr := t'.avr }

section Moves

variable {t t' : Composed} {s : Avr.State} {e : Avr.HoldEvent}
variable {p : Message → Bool} {q : List Byte → Bool} {told : List Message}

/-- What a step tells goes into `write_buf` and comes last on the way up. -/
theorem AvrMoves.tells (h : AvrMoves t t' s e) (hs : ComposedSound t)
    (ht : Avr.Tells p s.link (Avr.holdStep s e).link told) :
    ∃ out : List Message, out.filter p = told ∧ t'.up = t.up ++ out.map Message.body ∧
      ∃ msgs, Upward t'.avr.state.link t'.pi.parseBuf t'.pi.inn msgs := by
  obtain ⟨msgs, hup⟩ := hs.upward
  have hread := hup.hasRead h.read
  obtain ⟨out, hout, htold⟩ := hread.tells ht h.does
  have hpi : t'.pi = t.pi := by rw [h.rest]
  have hhandle : t'.handle = t.handle := by rw [h.rest]
  have hup' : Upward t'.avr.state.link t'.pi.parseBuf t'.pi.inn (msgs ++ out) := by
    rw [h.avr, hpi]
    exact htold
  refine ⟨out, hout, ?_, _, hup'⟩
  rw [Composed.up_eq hup', Composed.up_eq hup, hhandle, List.map_append, List.append_assoc]

/-- Of what is on its way up, a step of the AVR appends what it tells. -/
theorem AvrMoves.up (h : AvrMoves t t' s e) (hpq : ∀ m : Message, q m.body = p m)
    (hs : ComposedSound t) (ht : Avr.Tells p s.link (Avr.holdStep s e).link told) :
    t'.up.filter q = t.up.filter q ++ told.map Message.body := by
  obtain ⟨out, hout, hup, -⟩ := h.tells hs ht
  have hcomp : q ∘ Message.body = p := funext hpq
  rw [hup, List.filter_append, List.filter_map, hcomp, hout]

theorem AvrMoves.sound (h : AvrMoves t t' s e) (hs : ComposedSound t)
    (hlistens : ∃ downs, Avr.Listens t'.avr t.pi.out downs) : ComposedSound t' := by
  have hhold := h.read.hold hs.hold
  have hflag := h.read.flag hs.flag
  obtain ⟨-, -, -, hup⟩ := h.tells hs (Avr.tells_holdStep hhold.wired.table e)
  have hpi : t'.pi = t.pi := by rw [h.rest]
  have hhandle : t'.handle = t.handle := by rw [h.rest]
  refine ⟨?_, ?_, hup, by rw [hpi]; exact hlistens, by rw [hhandle]; exact hs.queue,
    by rw [hpi]; exact hs.still, by rw [hpi]; exact hs.thrown⟩
  · rw [h.avr]
    exact Avr.hold_sound_step hhold e
  · rw [h.avr]
    exact Avr.flag_sound_step hhold hflag e

end Moves

theorem avrEvent_does (s : Avr.State) (e : AvrEvent) (sent : List Message)
    (held : Option Message) (hf : Avr.Flows s.link sent held) :
    Avr.Does s (Avr.holdStep s e.hold) sent held := by
  cases e with
  | postponeTry => exact Avr.postponeTryState_does hf
  | rotor id action => exact (Avr.quiet_menuHandleRotor s id action).does hf
  | expire id => exact (Avr.quiet_atExpire s id).does hf
  | flushTick =>
    exact (Avr.quiet_ite (.of_flush (Avr.flushQuiet_display s.flush)) (.refl s)).does hf
  | heartbeatTick => exact (Avr.quiet_ite (Avr.quiet_heartbeatVerify s) (.refl s)).does hf
  | int2 => exact (Avr.quiet_twi s _).does hf

/-- None of them reads. -/
theorem avrEvent_incoming (s : Avr.State) (e : AvrEvent) :
    (Avr.holdStep s e.hold).link.readBuf = s.link.readBuf ∧
      (Avr.holdStep s e.hold).decoder = s.decoder := by
  have hquiet : ∀ s' : Avr.State, Avr.Quiet s s' →
      s'.link.readBuf = s.link.readBuf ∧ s'.decoder = s.decoder :=
    fun _ h => ⟨h.link.readBuf, h.decoder⟩
  cases e with
  | postponeTry =>
    refine ⟨?_, rfl⟩
    unfold AvrEvent.hold Avr.holdStep Avr.postponeTryState Avr.postponeTry
    dsimp only
    split_ifs <;> rfl
  | rotor id action => exact hquiet _ (Avr.quiet_menuHandleRotor s id action)
  | expire id => exact hquiet _ (Avr.quiet_atExpire s id)
  | flushTick =>
    exact hquiet _ (Avr.quiet_ite (.of_flush (Avr.flushQuiet_display s.flush)) (.refl s))
  | heartbeatTick => exact hquiet _ (Avr.quiet_ite (Avr.quiet_heartbeatVerify s) (.refl s))
  | int2 => exact hquiet _ (Avr.quiet_twi s _)

/-- In the middle of `decode_try` only the interrupt does something. -/
def Composed.Runs (t : Composed) (e : AvrEvent) : Prop := t.avr.pc = .idle ∨ e = .int2

theorem stepAvr_runs {t : Composed} {e : AvrEvent} (h : t.Runs e) :
    Composed.stepAvr t.avr e = { t.avr with state := Avr.holdStep t.avr.state e.hold } := by
  rcases h with hpc | rfl
  · have hout : Avr.outside t.avr (fun s => Avr.holdStep s e.hold) =
        { t.avr with state := Avr.holdStep t.avr.state e.hold } := if_pos hpc
    cases e with
    | int2 => rfl
    | _ => exact hout
  · rfl

theorem stepAvr_waits {t : Composed} {e : AvrEvent} (h : ¬ t.Runs e) :
    composedStep t (.avr e) = t := by
  obtain ⟨hpc, hint⟩ := not_or.mp h
  have hout : Avr.outside t.avr (fun s => Avr.holdStep s e.hold) = t.avr := if_neg hpc
  have hsame : Composed.stepAvr t.avr e = t.avr := by
    cases e with
    | int2 => exact absurd rfl hint
    | _ => exact hout
  unfold composedStep
  dsimp only
  rw [hsame]

theorem avr_moves {t : Composed} (h : ComposedSound t) {e : AvrEvent} (hr : t.Runs e) :
    AvrMoves t (composedStep t (.avr e)) t.avr.state e.hold := by
  obtain ⟨downs, hlistens⟩ := h.listens
  refine ⟨.refl hlistens.valid, ?_, avrEvent_does t.avr.state e, rfl⟩
  unfold composedStep
  dsimp only
  rw [stepAvr_runs hr]

theorem avr_down {t : Composed} {e : AvrEvent} (hr : t.Runs e) :
    (composedStep t (.avr e)).down = t.down := by
  obtain ⟨hbuf, hdec⟩ := avrEvent_incoming t.avr.state e
  unfold Composed.down composedStep
  dsimp only
  rw [stepAvr_runs hr]
  dsimp only
  rw [hbuf, hdec]

theorem avr_sound {t : Composed} (h : ComposedSound t) (e : AvrEvent) :
    ComposedSound (composedStep t (.avr e)) := by
  by_cases hr : t.Runs e
  · obtain ⟨downs, hlistens⟩ := h.listens
    obtain ⟨hbuf, hdec⟩ := avrEvent_incoming t.avr.state e
    refine (avr_moves h hr).sound h ⟨downs, hlistens.same ?_ ?_ ?_⟩
    all_goals
      unfold composedStep
      dsimp only
      rw [stepAvr_runs hr]
    · exact hbuf
    · exact hdec
  · rw [stepAvr_waits hr]
    exact h

/-! ### A step in which nobody handles a message -/

/-- The messages move along the channels. -/
structure PiQuiet (t t' : Composed) : Prop where
  avr : ∃ l d pc, t'.avr = ⟨{ t.avr.state with link := l, decoder := d }, pc⟩
  up : t'.up = t.up
  content : t'.handle.content = t.handle.content
  suspend : t'.handle.suspend = t.handle.suspend
  playlistId : t'.handle.playlistId = t.handle.playlistId
  goodbye : t'.goodbye = t.goodbye
  asked : ∀ msg ∈ t.handle.toMcuQueue ++ t.down, msg ∈ t'.handle.toMcuQueue ++ t'.down
  sound : ComposedSound t'

section Quiet

variable {t : Composed}

theorem PiQuiet.refl (h : ComposedSound t) : PiQuiet t t :=
  ⟨⟨t.avr.state.link, t.avr.state.decoder, t.avr.pc, rfl⟩, rfl, rfl, rfl, rfl, rfl,
    fun _ hm => hm, h⟩

/-- What becomes of the threads and the commands is nobody's concern here. -/
theorem PiQuiet.aside (h : ComposedSound t) {statusQueue : List Status}
    {commandQueue : List Command} {running : List Command} {terminated : Bool} :
    PiQuiet t { t with
      handle := { t.handle with statusQueue := statusQueue, commandQueue := commandQueue }
      running := running
      terminated := terminated } :=
  ⟨⟨t.avr.state.link, t.avr.state.decoder, t.avr.pc, rfl⟩, rfl, rfl, rfl, rfl, rfl,
    fun _ hm => hm, ⟨h.hold, h.flag, h.upward, h.listens, h.queue, h.still, h.thrown⟩⟩

theorem exchange_quiet (h : ComposedSound t) (hc : Clear t .exchange) :
    PiQuiet t (t.piStep .exchange) := by
  obtain ⟨msgs, hup⟩ := h.upward
  obtain ⟨downs, hlistens⟩ := h.listens
  unfold Composed.piStep
  dsimp only
  split
  · exact .refl h
  rename_i b out hout
  obtain ⟨hkept, hplace⟩ := hc (by rw [hout]; exact List.cons_ne_nil _ _)
  have hrest : (transferByte t.pi t.avr.state.link.spdr).out = out := by
    simp [transferByte, hout]
  have hup' : Upward (Avr.exchangeStep t.avr b).state.link
      (transferByte t.pi t.avr.state.link.spdr).parseBuf
      (transferByte t.pi t.avr.state.link.spdr).inn msgs := hup.exchange hkept b
  rw [hout] at hlistens
  have hlistens' := hlistens.arrive hkept hplace
  rw [← hrest] at hlistens'
  rw [← hout] at hlistens
  refine ⟨⟨_, _, _, rfl⟩, ?_, rfl, rfl, rfl, rfl, fun msg hm => ?_, ?_⟩
  · exact (Composed.up_eq (t := { t with
      avr := Avr.exchangeStep t.avr b
      pi := transferByte t.pi t.avr.state.link.spdr }) hup').trans (Composed.up_eq hup).symm
  · rw [Composed.down_eq hlistens] at hm
    rw [Composed.down_eq (t := { t with
      avr := Avr.exchangeStep t.avr b
      pi := transferByte t.pi t.avr.state.link.spdr }) hlistens']
    exact hm
  · refine ⟨⟨h.hold.wired.of_eq rfl, h.hold.panel⟩, h.flag.of_same (.inl rfl) rfl,
      ⟨msgs, hup'⟩, ⟨downs, hlistens'⟩, h.queue, fun hpc => ?_, h.thrown⟩
    have hnone := (h.still hpc).1
    rw [hout] at hnone
    cases hnone

/-- A message that is put on the wire is on its way down. -/
theorem stepMcu_sends (h : ComposedSound t) (hpc : ∀ back, t.pi.pc ≠ .transfer back)
    {k : Message} (hk : k.payload.length ≤ Avr.inSize) (id : Byte) (back : McuPc)
    {queue : List (List Byte)} (hsub : queue ⊆ t.handle.toMcuQueue)
    (hsent : ∀ msg ∈ t.handle.toMcuQueue, msg ∈ queue ∨ msg = k.body) :
    PiQuiet t (t.withMcu { t.mcu with
      toQueue := queue, pendingId := id, out := k.frame, inn := [], pc := .transfer back }) := by
  obtain ⟨msgs, hup⟩ := h.upward
  obtain ⟨downs, hlistens⟩ := h.listens
  obtain ⟨hout, hinn⟩ := h.still hpc
  let t' : Composed := t.withMcu { t.mcu with
    toQueue := queue, pendingId := id, out := k.frame, inn := [], pc := .transfer back }
  have hup' := hup
  rw [hinn] at hup'
  have hsame : Upward t'.avr.state.link t'.pi.parseBuf t'.pi.inn msgs := hup'
  have hdown := Composed.down_eq hlistens
  rw [hout] at hlistens
  have hlonger : Avr.Listens t'.avr t'.pi.out (downs ++ [k]) := hlistens.extend hk
  refine ⟨⟨_, _, _, rfl⟩, (Composed.up_eq hsame).trans (Composed.up_eq hup).symm,
    rfl, rfl, rfl, rfl, fun msg hm => ?_, ?_⟩
  · rw [hdown] at hm
    rw [show Composed.down _ = (downs ++ [k]).map Message.body from Composed.down_eq hlonger,
      List.map_append]
    rcases List.mem_append.mp hm with hm | hm
    · rcases hsent msg hm with hm | rfl
      · exact List.mem_append_left _ hm
      · exact List.mem_append_right _ (List.mem_append_right _ (List.mem_singleton_self _))
    · exact List.mem_append_right _ (List.mem_append_left _ hm)
  · exact ⟨h.hold, h.flag, ⟨msgs, hsame⟩, ⟨_, hlonger⟩, fun msg hm => h.queue msg (hsub hm),
      fun hno => absurd rfl (hno back), h.thrown⟩

/-- `mcu_handle_t` puts a message on the wire, or goes on to another part. -/
theorem stepMcu_start (h : ComposedSound t) (hpc : ∀ back, t.pi.pc ≠ .transfer back) :
    PiQuiet t t.stepMcu := by
  have hmove : McuMove t.mcu (mcuStep t.mcu) := mcuStep_move h.thrown h.queue hpc
  have hthrown : t.mcu.thrown = false := h.thrown
  unfold Composed.stepMcu
  generalize mcuStep t.mcu = m at hmove ⊢
  cases hmove with
  | part queue rised pc =>
    dsimp only
    rw [if_neg (by simp [hthrown])]
    exact ⟨⟨_, _, _, rfl⟩, rfl, rfl, rfl, rfl, rfl, fun _ hm => hm,
      ⟨h.hold, h.flag, h.upward, h.listens, h.queue, fun _ => h.still hpc, h.thrown⟩⟩
  | idle back =>
    dsimp only
    rw [if_neg (by simp [hthrown])]
    exact stepMcu_sends h hpc (k := ⟨serialIdToIgnore, msgIdIdle, []⟩) (Nat.zero_le _) _ back
      (List.Subset.refl _) fun msg hm => .inl hm
  | pop p queue back head free =>
    have hqueue : t.handle.toMcuQueue = p.message.body :: queue := head
    dsimp only
    rw [if_neg (by simp [hthrown])]
    refine stepMcu_sends h hpc (p.size.trans (by decide)) _ back ?_ fun msg hm => ?_
    · rw [hqueue]
      exact List.subset_cons_self _ _
    · rw [hqueue] at hm
      exact (List.mem_cons.mp hm).symm

/-- What a transfer has brought back is parsed. -/
theorem stepMcu_read (h : ComposedSound t) {back : McuPc} (hpc : t.pi.pc = .transfer back) :
    PiQuiet t t.stepMcu := by
  obtain ⟨msgs, hup⟩ := h.upward
  obtain ⟨downs, hlistens⟩ := h.listens
  have hstep : mcuStep t.mcu = if t.pi.out = [] then readMsg t.mcu back else t.mcu := by
    unfold mcuStep
    rw [if_neg (by rw [show t.mcu.thrown = false from h.thrown]; simp),
      show t.mcu.pc = .transfer back from hpc]
    rfl
  unfold Composed.stepMcu
  rw [hstep]
  dsimp only
  by_cases hout : t.pi.out = []
  · rw [if_pos hout]
    obtain ⟨got, left, rfl, hgot, hleft⟩ := hup.read
    have hread := foldl_readByte (m := t.mcu) h.thrown hgot
    unfold readMsg
    rw [show t.mcu.inn = t.pi.inn from rfl]
    rcases hread with ⟨-, hthrown⟩ | ⟨id, -, hfold⟩
    · rw [if_pos hthrown]
      exact .aside h
    · rw [hfold, if_neg (by simp [Composed.mcu, h.thrown])]
      let t' : Composed := t.withMcu { t.mcu with
        parseBuf := (parse t.pi.parseBuf t.pi.inn).1
        fromQueue := t.handle.fromMcuQueue ++ got.map Message.body
        pendingId := id
        inn := []
        pc := back }
      have hup' : Upward t'.avr.state.link t'.pi.parseBuf t'.pi.inn left := hleft
      refine ⟨⟨_, _, _, rfl⟩, ?_, rfl, rfl, rfl, rfl, fun _ hm => hm, ?_⟩
      · refine (Composed.up_eq hup').trans ?_
        rw [Composed.up_eq hup, List.map_append]
        exact List.append_assoc _ _ _
      · exact ⟨h.hold, h.flag, ⟨left, hup'⟩, h.listens, h.queue, fun _ => ⟨hout, rfl⟩, h.thrown⟩
  · rw [if_neg hout, if_neg (by simp [Composed.mcu, h.thrown])]
    exact ⟨⟨_, _, _, rfl⟩, rfl, rfl, rfl, rfl, rfl, fun _ hm => hm,
      ⟨h.hold, h.flag, h.upward, h.listens, h.queue, h.still, h.thrown⟩⟩

theorem stepMcu_quiet (h : ComposedSound t) : PiQuiet t t.stepMcu := by
  by_cases hpc : ∃ back, t.pi.pc = .transfer back
  · obtain ⟨back, hpc⟩ := hpc
    exact stepMcu_read h hpc
  · exact stepMcu_start h fun back hback => hpc ⟨back, hback⟩

/-- The steps in which neither `decode`, `handle_mcu` nor `handle_status` runs
and no knob or timer of the AVR. -/
def ComposedEvent.Quiet : ComposedEvent → Prop
  | .exchange | .pi | .interrupt _ | .execute | .complete _ _ _ | .timeout _ | .line _ _ => True
  | _ => False

theorem composedStep_quiet (h : ComposedSound t) {e : ComposedEvent} (he : e.Quiet)
    (hc : Clear t e) : PiQuiet t (composedStep t e) := by
  have hlive : ∀ e : ComposedEvent, PiQuiet t (t.piStep e) →
      PiQuiet t (if t.terminated = true then t else t.piStep e) := by
    intro e hq
    split
    · exact .refl h
    · exact hq
  cases e with
  | exchange => exact hlive _ (exchange_quiet h hc)
  | pi => exact hlive _ (stepMcu_quiet h)
  | interrupt rised =>
    exact hlive _ ⟨⟨_, _, _, rfl⟩, rfl, rfl, rfl, rfl, rfl, fun _ hm => hm,
      ⟨h.hold, h.flag, h.upward, h.listens, h.queue, h.still, h.thrown⟩⟩
  | execute =>
    apply hlive
    unfold Composed.piStep
    dsimp only
    split
    · exact .refl h
    · exact .aside h
  | complete i value out =>
    apply hlive
    unfold Composed.piStep
    dsimp only
    split
    · exact .refl h
    · exact .aside h
  | timeout i =>
    apply hlive
    unfold Composed.piStep
    dsimp only
    split
    · exact .refl h
    · exact .aside h
  | line command out =>
    apply hlive
    unfold Composed.piStep
    dsimp only
    split
    · exact .aside h
    · exact .refl h
  | _ => exact absurd he id

end Quiet

/-! ### `decode_try` -/

/-- `decode` is invoked in the state `s`. -/
structure Decodes (t t' : Composed) (s : Avr.State) : Prop where
  fits : (decodedMessage s.decoder).payload.length ≤ Avr.inSize
  moves : AvrMoves t t' s (.message (decodedMessage s.decoder) fits)
  down : t.down = (decodedMessage s.decoder).body :: t'.down
  sound : ComposedSound t'

theorem decodeStep_decodes {t : Composed} (h : ComposedSound t) {s : Avr.State}
    (hs : Avr.invoked t.avr = some s) : Decodes t (composedStep t .decodeStep) s := by
  obtain ⟨downs, hlistens⟩ := h.listens
  obtain ⟨hread, hstep, rest, hdowns, hfits, hafter⟩ := hlistens.decodes hs
  have hreceive : Avr.decodeDone s = Avr.receive s (decodedMessage s.decoder) := by
    have hdone := (Avr.invoked_cases hs).2.2
    exact congrArg Avr.Cpu.state (hdone.symm.trans hstep)
  have hmoves : AvrMoves t (composedStep t .decodeStep) s
      (.message (decodedMessage s.decoder) hfits) := by
    refine ⟨hread, congrArg Avr.Cpu.state hstep, fun sent held hf => ?_, rfl⟩
    have hdoes := Avr.decodeDone_does hf
    rw [hreceive] at hdoes
    exact hdoes
  refine ⟨hfits, hmoves, ?_, hmoves.sound h ⟨rest, hafter⟩⟩
  rw [Composed.down_eq hlistens, hdowns, List.map_cons,
    Composed.down_eq (t := composedStep t .decodeStep) hafter]

/-- An access that only reads. -/
theorem decodeStep_quiet {t : Composed} (h : ComposedSound t) (hs : Avr.invoked t.avr = none) :
    PiQuiet t (composedStep t .decodeStep) ∧
      (composedStep t .decodeStep).avr.state.link.written = t.avr.state.link.written := by
  obtain ⟨msgs, hup⟩ := h.upward
  obtain ⟨downs, hlistens⟩ := h.listens
  obtain ⟨hread, -⟩ := Avr.decodeStep_hasRead hlistens.valid hs
  have hup' := hup.hasRead hread
  have hlistens' := hlistens.read hs
  have hsound : ComposedSound (composedStep t .decodeStep) :=
    ⟨hread.hold h.hold, hread.flag h.flag, ⟨msgs, hup'⟩, ⟨downs, hlistens'⟩, h.queue, h.still,
      h.thrown⟩
  have hsame : (composedStep t .decodeStep).up = t.up :=
    (Composed.up_eq (t := composedStep t .decodeStep) hup').trans (Composed.up_eq hup).symm
  have hdown : (composedStep t .decodeStep).down = t.down :=
    (Composed.down_eq (t := composedStep t .decodeStep) hlistens').trans
      (Composed.down_eq hlistens).symm
  obtain ⟨readBuf, d, -, he⟩ := hread
  refine ⟨⟨⟨{ t.avr.state.link with readBuf := readBuf }, d, (Avr.decodeStep t.avr).pc, ?_⟩, hsame,
    rfl, rfl, rfl, rfl, fun msg hm => ?_, hsound⟩, ?_⟩
  · rw [← he]
    rfl
  · rw [hdown]
    exact hm
  · change (Avr.decodeStep t.avr).state.link.written = _
    rw [he]

/-! ### `handle_t` -/

theorem ComposedSound.posts {t : Composed} (h : ComposedSound t) {handle h' : Handle}
    (hsame : handle.toMcuQueue = t.handle.toMcuQueue) (hp : Posts handle h') (goodbye : Bool) :
    ComposedSound { t with handle := h', goodbye := goodbye } := by
  obtain ⟨ps, he⟩ := hp
  rw [hsame] at he
  refine ⟨h.hold, h.flag, h.upward, h.listens, fun msg hm => ?_, h.still, h.thrown⟩
  dsimp only at hm
  rw [he] at hm
  rcases List.mem_append.mp hm with hm | hm
  · exact h.queue msg hm
  · obtain ⟨p, -, rfl⟩ := List.mem_map.mp hm
    exact ⟨p, rfl⟩

/-- `start` of `handle_t` finds nothing, throws, or handles the message. -/
theorem popMcu_cases (t : Composed) :
    t.popMcu = t ∨ t.popMcu = { t with terminated := true } ∨
      ∃ msg rest handle, t.handle.fromMcuQueue = msg :: rest ∧
        handleMcu { t.handle with fromMcuQueue := rest } msg = some handle ∧
        t.popMcu = { t with handle := handle } := by
  unfold Composed.popMcu
  cases t.handle.fromMcuQueue with
  | nil => exact .inl rfl
  | cons msg rest =>
    dsimp only
    cases he : handleMcu { t.handle with fromMcuQueue := rest } msg with
    | none => exact .inr (.inl rfl)
    | some handle => exact .inr (.inr ⟨msg, rest, handle, rfl, he, rfl⟩)

theorem popStatus_cases (t : Composed) :
    t.popStatus = t ∨ ∃ status rest, t.handle.statusQueue = status :: rest ∧
      (t.popStatus = { t with
          goodbye := t.goodbye || status.id = CommandId.poweroff
          terminated := true } ∨
        ∃ handle, handleStatus { t.handle with statusQueue := rest } status = some handle ∧
          t.popStatus = { t with
            goodbye := t.goodbye || status.id = CommandId.poweroff
            handle := handle }) := by
  unfold Composed.popStatus
  cases t.handle.statusQueue with
  | nil => exact .inl rfl
  | cons status rest =>
    refine .inr ⟨status, rest, rfl, ?_⟩
    dsimp only
    cases he : handleStatus { t.handle with statusQueue := rest } status with
    | none => exact .inl rfl
    | some handle => exact .inr ⟨handle, rfl, rfl⟩

/-! ### The invariant -/

theorem restart_upward {t : Composed} (h : ComposedSound t)
    (hspdr : t.avr.state.link.spdr ≠ eyeCatch) :
    Upward (Avr.int3Vect t.avr.state).link mcuHandleInit.parseBuf mcuHandleInit.inn
      [Avr.versionMessage] := by
  obtain ⟨msgs, hup⟩ := h.upward
  exact hup.restart hspdr

theorem restart_sound {t : Composed} (h : ComposedSound t)
    (trackRegexList : List (Text → Option Text)) (firstByte : Byte)
    (hc : Clear t (.restart trackRegexList firstByte)) :
    ComposedSound (composedStep t (.restart trackRegexList firstByte)) := by
  obtain ⟨msgs, hup⟩ := h.upward
  obtain ⟨downs, hlistens⟩ := h.listens
  obtain ⟨sent, held, hf, -⟩ := hup.flows
  refine ⟨Avr.hold_sound_step h.hold .int3, Avr.flag_sound_step h.hold h.flag .int3,
    ⟨_, restart_upward h hc⟩, ⟨[], hlistens.restart hf⟩, ?_, fun _ => ⟨rfl, rfl⟩, rfl⟩
  intro msg hm
  exact absurd hm List.not_mem_nil

theorem composedSound_step {t : Composed} (h : ComposedSound t) {e : ComposedEvent}
    (hc : Clear t e) : ComposedSound (composedStep t e) := by
  -- what the daemon does as long as it runs
  have hlive : ∀ e : ComposedEvent, ComposedSound (t.piStep e) →
      ComposedSound (if t.terminated = true then t else t.piStep e) := by
    intro e hq
    split
    · exact h
    · exact hq
  have hended : ∀ goodbye, ComposedSound { t with goodbye := goodbye, terminated := true } :=
    fun _ => ⟨h.hold, h.flag, h.upward, h.listens, h.queue, h.still, h.thrown⟩
  have hquiet : e.Quiet → ComposedSound (composedStep t e) :=
    fun he => (composedStep_quiet h he hc).sound
  cases e with
  | avr e => exact avr_sound h e
  | decodeStep =>
    cases hs : Avr.invoked t.avr with
    | none => exact (decodeStep_quiet h hs).1.sound
    | some s => exact (decodeStep_decodes h hs).sound
  | restart trackRegexList firstByte => exact restart_sound h trackRegexList firstByte hc
  | handleMcu =>
    apply hlive
    unfold Composed.piStep
    dsimp only
    rcases popMcu_cases t with he | he | ⟨msg, rest, handle, -, hmcu, he⟩
    · rw [he]
      exact h
    · rw [he]
      exact hended t.goodbye
    · rw [he]
      have hposts := handleMcu_posts hmcu
      exact h.posts rfl hposts t.goodbye
  | handleStatus =>
    apply hlive
    unfold Composed.piStep
    dsimp only
    rcases popStatus_cases t with he | ⟨status, rest, -, he | ⟨handle, hstatus, he⟩⟩
    · rw [he]
      exact h
    · rw [he]
      exact hended _
    · rw [he]
      have hposts := handleStatus_posts hstatus
      exact h.posts rfl hposts _
  | _ => exact hquiet trivial

theorem composedInit_sound : ComposedSound composedInit := by
  have hlinked := Avr.init_linkedSound
  have hl : Avr.init.link = Avr.linkInit := Avr.modeSet_link _ _
  have hfresh := Avr.init_freshReader
  refine ⟨hlinked.hold, hlinked.flag, ⟨[], [], [], [], [], none, rfl, Avr.init_flows, ?_, ?_, ?_⟩,
    ⟨[], .inl ?_, ?_⟩, ?_, fun _ => ⟨rfl, rfl⟩, rfl⟩
  · simp [Avr.HoldsStatus]
  · change Avr.init.link.writeBuf.contents = _
    rw [hl]
    exact AvrRing.ringInit_contents 255
  · change parse [] [Avr.init.link.spdr] = _
    rw [hl]
    decide
  · have hreads : Avr.Reads Avr.init.decoder.calls [] ⟨Avr.init, .idle⟩ := init_fresh.reads
    rw [← List.append_nil Avr.init.decoder.calls] at hreads
    exact hreads
  · intro m hm
    rw [List.append_nil] at hm
    rw [show composedInit.avr.state.decoder.calls = [] from hfresh.calls] at hm
    cases hm
  · intro msg hm
    exact absurd hm List.not_mem_nil

end LedServer
