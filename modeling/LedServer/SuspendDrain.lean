import LedServer.ComposedFlow

set_option autoImplicit false

/-!
# `m_suspend` and the drain flag

The Pi is told of each change of the drain flag, if it is connected and
`write_buf` has space. Once it has handled what is on its way, its flag is the
one the last of those messages names.
-/
namespace LedServer
open LedServer.Pi LedServer.Mcu Machine

def IsSuspend (msg : List Byte) : Prop := decodeGetMsgId msg = some msgIdSuspend

instance (msg : List Byte) : Decidable (IsSuspend msg) := inferInstanceAs (Decidable (_ = _))

def IsResume (msg : List Byte) : Prop := decodeGetMsgId msg = some msgIdResume

instance (msg : List Byte) : Decidable (IsResume msg) := inferInstanceAs (Decidable (_ = _))

def signalMsg (msg : List Byte) : Bool := IsSuspend msg || IsResume msg

/-- What a message makes of `m_suspend`. -/
def signalStep (suspend : Bool) (msg : List Byte) : Bool :=
  if IsSuspend msg then true else if IsResume msg then false else suspend

namespace Composed

/-- `m_suspend` once all that is on its way up has been handled. -/
def pendingSuspend (t : Composed) : Bool := t.up.foldl signalStep t.handle.suspend

/-- The claim about one state. -/
def Agrees (t : Composed) : Prop :=
  t.avr.state.isConnected = true → (∀ msg ∈ t.up, ¬ IsSuspend msg ∧ ¬ IsResume msg) →
    (t.handle.suspend = true ↔ t.avr.state.flush.drain = true)

def Settled (t : Composed) : Prop :=
  t.avr.state.isConnected = true → t.pendingSuspend = t.avr.state.flush.drain

end Composed

/-- The step is told to the Pi, or the Pi comes to the flag anyway. -/
def KeepsAgree (t : Composed) : ComposedEvent → Prop
  | .avr (.rotor id _) => t.avr.pc = .idle → Avr.Drains t.avr.state id →
      t.avr.state.isConnected = true →
        Avr.isWritable t.avr.state.link = true ∨ t.pendingSuspend = true
  | .avr (.expire id) => t.avr.pc = .idle →
      id = .menu ∧ t.avr.state.timers.callback id ≠ none →
        (Avr.closing t.avr.state).isConnected = true →
          Avr.isWritable (Avr.closing t.avr.state).link = true ∨
            (t.pendingSuspend = false ∧ ¬ (t.avr.state.menu.state = .tag ∧
              t.avr.state.isConnected = true ∧ Avr.isWritable t.avr.state.link = true))
  | .decodeStep => ∀ s ∈ Avr.invoked t.avr,
      (Avr.OpensTag s (Avr.decodedMessage s.decoder) →
        (s.isConnected = true ∧ Avr.isWritable s.link = true) ∨ t.pendingSuspend = false) ∧
        ((Avr.decodedMessage s.decoder).id = msgIdHandshake → s.isConnected = false →
          t.pendingSuspend = s.flush.drain)
  | .restart _ _ => t.avr.state.isConnected = true → t.avr.state.flush.drain = false
  | _ => True

instance (t : Composed) (e : ComposedEvent) : Decidable (KeepsAgree t e) :=
  match e with
  | .avr (.rotor _ _) => inferInstanceAs (Decidable (_ → _))
  | .avr (.expire _) => inferInstanceAs (Decidable (_ → _))
  | .decodeStep => inferInstanceAs (Decidable (∀ s ∈ Avr.invoked t.avr, _))
  | .restart _ _ => inferInstanceAs (Decidable (_ → _))
  | .avr .postponeTry | .avr .flushTick | .avr .heartbeatTick | .avr .int2 | .exchange | .pi
  | .interrupt _ | .handleMcu | .handleStatus | .execute | .complete _ _ _ | .timeout _
  | .line _ _ => .isTrue trivial

/-! ### The flag the Pi comes to -/

theorem signalStep_other {suspend : Bool} {msg : List Byte} (h : signalMsg msg = false) :
    signalStep suspend msg = suspend := by
  simp only [signalMsg, Bool.or_eq_false_iff, decide_eq_false_iff_not] at h
  rw [signalStep, if_neg h.1, if_neg h.2]

theorem signalStep_of_id {msg : List Byte} {id : Byte} (h : decodeGetMsgId msg = some id)
    (suspend : Bool) : signalStep suspend msg =
      if id = msgIdSuspend then true else if id = msgIdResume then false else suspend := by
  simp only [signalStep, IsSuspend, IsResume, h, Option.some.injEq]

/-- Only SUSPEND and RESUME count. -/
theorem foldl_filter_signal (suspend : Bool) (msgs : List (List Byte)) :
    (msgs.filter signalMsg).foldl signalStep suspend = msgs.foldl signalStep suspend := by
  induction msgs generalizing suspend with
  | nil => rfl
  | cons msg msgs ih =>
    by_cases h : signalMsg msg = true
    · rw [List.filter_cons_of_pos h, List.foldl_cons, List.foldl_cons, ih]
    · rw [List.filter_cons_of_neg h, List.foldl_cons, ih,
        signalStep_other (by simpa using h)]

theorem signalMsg_body (m : Message) : signalMsg m.body = Avr.isSignal m := by
  simp [signalMsg, IsSuspend, IsResume, decodeGetMsgId, Message.body, Avr.isSignal]

/-- Messages appended on the way up are the last to count. -/
theorem pending_append {t t' : Composed} {told : List Message}
    (hup : t'.up.filter signalMsg = t.up.filter signalMsg ++ told.map Message.body)
    (hsuspend : t'.handle.suspend = t.handle.suspend) :
    t'.pendingSuspend = (told.map Message.body).foldl signalStep t.pendingSuspend := by
  unfold Composed.pendingSuspend
  rw [← foldl_filter_signal, hup, hsuspend, List.foldl_append, foldl_filter_signal]

theorem pending_spoken_suspend (s : Avr.State) (suspend : Bool) :
    ((Avr.spoken s Avr.suspendMessage).map Message.body).foldl signalStep suspend =
      if s.isConnected = true ∧ Avr.isWritable s.link = true then true else suspend := by
  unfold Avr.spoken
  split <;> rfl

theorem pending_spoken_resume (s : Avr.State) (suspend : Bool) :
    ((Avr.spoken s Avr.resumeMessage).map Message.body).foldl signalStep suspend =
      if s.isConnected = true ∧ Avr.isWritable s.link = true then false else suspend := by
  unfold Avr.spoken
  split <;> rfl

/-- With none of them on the way the flag has come to what it is. -/
theorem Composed.Settled.agrees {t : Composed} (h : t.Settled) : t.Agrees := by
  intro hc hnone
  have hsame : t.pendingSuspend = t.handle.suspend := by
    unfold Composed.pendingSuspend
    rw [← foldl_filter_signal, List.filter_eq_nil_iff.mpr]
    · rfl
    · intro msg hm
      simp [signalMsg, hnone msg hm]
  rw [← h hc, hsame]

/-! ### One step -/

/-- A step of the AVR on its side of the claim. -/
theorem settled_avr_iff {t t' : Composed} {s : Avr.State} {e : Avr.HoldEvent}
    (h : ComposedSound t) (hm : AvrMoves t t' s e) :
    t'.Settled ↔ (Avr.connectedAfter s e = true →
      ((Avr.signals s e).map Message.body).foldl signalStep t.pendingSuspend =
        Avr.drainAfter s e) := by
  have hhold := hm.read.hold h.hold
  have hup := hm.up signalMsg_body h (Avr.tells_holdStep hhold.wired.table e)
  have hpending := pending_append hup (by rw [hm.rest])
  have hconnected := Avr.holdStep_connected hhold (hm.read.flag h.flag) e
  have hdrain := Avr.holdStep_drain hhold.wired e
  unfold Composed.Settled
  rw [hpending, hm.avr, hconnected, hdrain]

theorem settled_rotor_iff {t : Composed} (h : ComposedSound t) (hs : t.Settled) (id action : Byte) :
    (composedStep t (.avr (.rotor id action))).Settled ↔
      KeepsAgree t (.avr (.rotor id action)) := by
  by_cases hr : t.avr.pc = .idle
  · refine (settled_avr_iff h (avr_moves h (.inl hr))).trans ?_
    simp only [AvrEvent.hold, Avr.connectedAfter, Avr.signals, Avr.drainAfter, KeepsAgree, hr,
      true_implies]
    by_cases hd : Avr.Drains t.avr.state id
    · rw [if_pos hd, if_pos hd, pending_spoken_suspend]
      constructor
      · intro hk _ hc
        have hflag := hk hc
        by_cases hw : Avr.isWritable t.avr.state.link = true
        · exact .inl hw
        · rw [if_neg fun h => hw h.2] at hflag
          exact .inr hflag
      · intro hk hc
        rcases hk hd hc with hw | hp
        · rw [if_pos ⟨hc, hw⟩]
        · rw [hp, ite_self]
    · rw [if_neg hd, if_neg hd]
      exact iff_of_true hs fun hyes => absurd hyes hd
  · rw [stepAvr_waits (not_or.mpr ⟨hr, AvrEvent.noConfusion⟩)]
    exact iff_of_true hs fun hyes => absurd hyes hr

theorem closing_connected (s : Avr.State) : (Avr.stop s).isConnected = (Avr.closing s).isConnected :=
  Avr.sendMessage0_connected (Avr.closing s) msgIdResume

theorem settled_expire_iff {t : Composed} (h : ComposedSound t) (hs : t.Settled) (id : Avr.AtId) :
    (composedStep t (.avr (.expire id))).Settled ↔ KeepsAgree t (.avr (.expire id)) := by
  by_cases hr : t.avr.pc = .idle
  · refine (settled_avr_iff h (avr_moves h (.inl hr))).trans ?_
    simp only [AvrEvent.hold, Avr.connectedAfter, Avr.signals, Avr.drainAfter, KeepsAgree, hr,
      true_implies]
    by_cases hmenu : id = .menu ∧ t.avr.state.timers.callback id ≠ none
    · have hclose : Avr.flagIn t.avr.state t.avr.state.menu.backupMode =
          (Avr.closing t.avr.state).isConnected := by
        rw [← closing_connected, Avr.stop_connected h.flag]
      -- the flag when RESUME comes to be encoded
      have htag : ((if t.avr.state.menu.state = .tag then Avr.spoken t.avr.state Avr.suspendMessage
          else []).map Message.body).foldl signalStep t.pendingSuspend =
          if t.avr.state.menu.state = .tag ∧ t.avr.state.isConnected = true ∧
            Avr.isWritable t.avr.state.link = true then true else t.pendingSuspend := by
        by_cases hn : t.avr.state.menu.state = .tag
        · rw [if_pos hn, pending_spoken_suspend]
          simp only [hn, true_and]
        · rw [if_neg hn, if_neg fun h => hn h.1]
          rfl
      rw [if_pos hmenu, if_pos hmenu, if_pos hmenu, List.map_append, List.foldl_append, htag,
        pending_spoken_resume, hclose]
      constructor
      · intro hk _ hc
        have hflag := hk hc
        by_cases hw : Avr.isWritable (Avr.closing t.avr.state).link = true
        · exact .inl hw
        · rw [if_neg fun h => hw h.2] at hflag
          by_cases hsent : t.avr.state.menu.state = .tag ∧ t.avr.state.isConnected = true ∧
            Avr.isWritable t.avr.state.link = true
          · rw [if_pos hsent] at hflag
            cases hflag
          · rw [if_neg hsent] at hflag
            exact .inr ⟨hflag, hsent⟩
      · intro hk hc
        rcases hk hmenu hc with hw | ⟨hp, hsent⟩
        · rw [if_pos ⟨hc, hw⟩]
        · rw [if_neg hsent, hp, ite_self]
    · rw [if_neg hmenu, if_neg hmenu, if_neg hmenu]
      exact iff_of_true hs fun hyes => absurd hyes hmenu
  · rw [stepAvr_waits (not_or.mpr ⟨hr, AvrEvent.noConfusion⟩)]
    exact iff_of_true hs fun hyes => absurd hyes hr

/-- A step in which nobody handles a message. -/
theorem settled_quiet {t t' : Composed} (hq : PiQuiet t t') (hs : t.Settled) : t'.Settled := by
  obtain ⟨l, d, pc, hl⟩ := hq.avr
  unfold Composed.Settled Composed.pendingSuspend
  rw [hq.up, hq.suspend, hl]
  exact hs

theorem settled_decode_iff {t : Composed} (h : ComposedSound t) (hs : t.Settled) :
    (composedStep t .decodeStep).Settled ↔ KeepsAgree t .decodeStep := by
  cases hi : Avr.invoked t.avr with
  | none =>
    refine iff_of_true (settled_quiet (decodeStep_quiet h hi).1 hs) fun s hm => ?_
    rw [hi] at hm
    cases hm
  | some s =>
    have hd := decodeStep_decodes h hi
    have hcond : KeepsAgree t .decodeStep ↔
        ((Avr.OpensTag s (Avr.decodedMessage s.decoder) →
          (s.isConnected = true ∧ Avr.isWritable s.link = true) ∨ t.pendingSuspend = false) ∧
          ((Avr.decodedMessage s.decoder).id = msgIdHandshake → s.isConnected = false →
            t.pendingSuspend = s.flush.drain)) := by
      unfold KeepsAgree
      simp [hi]
    have hs' : s.isConnected = true → t.pendingSuspend = s.flush.drain := by
      obtain ⟨readBuf, d, -, rfl⟩ := hd.moves.read
      exact hs
    rw [hcond]
    refine (settled_avr_iff h hd.moves).trans ?_
    simp only [Avr.connectedAfter, Avr.signals, Avr.drainAfter]
    by_cases hopens : Avr.OpensTag s (Avr.decodedMessage s.decoder)
    · have hshake : ¬ (Avr.decodedMessage s.decoder).id = msgIdHandshake := by
        rw [hopens.1]
        decide
      rw [if_pos (.inl hopens), if_pos hopens, if_pos hopens, pending_spoken_resume]
      constructor
      · intro hk
        refine ⟨fun _ => ?_, fun hh => absurd hh hshake⟩
        by_cases hsent : s.isConnected = true ∧ Avr.isWritable s.link = true
        · exact .inl hsent
        · have hflag := hk rfl
          rw [if_neg hsent] at hflag
          exact .inr hflag
      · rintro ⟨hk, -⟩ -
        rcases hk hopens with hsent | hp
        · rw [if_pos hsent]
        · rw [hp, ite_self]
    · rw [if_neg hopens, if_neg hopens]
      simp only [hopens, false_or, false_implies, true_and]
      by_cases hshake : (Avr.decodedMessage s.decoder).id = msgIdHandshake
      · rw [if_pos hshake]
        constructor
        · exact fun hk _ _ => hk rfl
        · intro hk _
          cases hc : s.isConnected with
          | true => exact hs' hc
          | false => exact hk hshake hc
      · rw [if_neg hshake]
        exact iff_of_true hs' fun hh => absurd hh hshake

/-- A message that is handled has counted before and after. -/
theorem settled_popMcu {t : Composed} (hs : t.Settled) : t.popMcu.Settled := by
  rcases popMcu_cases t with he | he | ⟨msg, rest, handle, hq, hmcu, he⟩
  · rw [he]
    exact hs
  · rw [he]
    exact hs
  · have hsame : t.popMcu.pendingSuspend = t.pendingSuspend := by
      have hsuspend : handle.suspend = signalStep t.handle.suspend msg ∧
          handle.fromMcuQueue = rest := by
        cases handleMcu_case hmcu with
        | quiet commands playlistId resume suspend =>
          exact ⟨(signalStep_other (by simp [signalMsg, IsSuspend, IsResume, resume, suspend])).symm,
            rfl⟩
        | resume hid =>
          rw [signalStep_of_id hid]
          exact ⟨infoPush_suspend _, infoPush_fromMcuQueue _⟩
        | suspend hid =>
          rw [signalStep_of_id hid]
          exact ⟨rfl, rfl⟩
        | status hid =>
          rw [signalStep_of_id hid.1]
          exact ⟨infoPush_suspend _, infoPush_fromMcuQueue _⟩
        | version hid =>
          rw [signalStep_of_id hid.1]
          exact ⟨infoPush_suspend _, infoPush_fromMcuQueue _⟩
      rw [he]
      unfold Composed.pendingSuspend Composed.up Composed.inFlight
      dsimp only
      rw [hsuspend.1, hsuspend.2, hq, List.cons_append, List.foldl_cons]
    intro hc
    rw [hsame]
    rw [he] at hc ⊢
    exact hs hc

theorem settled_step_iff {t : Composed} (h : ComposedSound t) (hs : t.Settled)
    {e : ComposedEvent} (hc : Clear t e) : (composedStep t e).Settled ↔ KeepsAgree t e := by
  have hlive : ∀ e : ComposedEvent, (t.piStep e).Settled →
      (if t.terminated = true then t else t.piStep e).Settled := by
    intro e hq
    split
    · exact hs
    · exact hq
  have hquiet : e.Quiet → (composedStep t e).Settled := fun hq =>
    settled_quiet (composedStep_quiet h hq hc) hs
  -- a step of the AVR that neither tells nor drains
  have hcalm : ∀ e' : AvrEvent, Avr.signals t.avr.state e'.hold = [] →
      Avr.drainAfter t.avr.state e'.hold = t.avr.state.flush.drain →
      (Avr.connectedAfter t.avr.state e'.hold = true → t.avr.state.isConnected = true) →
      (composedStep t (.avr e')).Settled := by
    intro e' hn hd hc
    by_cases hr : t.Runs e'
    · rw [settled_avr_iff h (avr_moves h hr), hn, hd]
      exact fun hafter => hs (hc hafter)
    · rw [stepAvr_waits hr]
      exact hs
  cases e with
  | avr e =>
    cases e with
    | rotor id action => exact settled_rotor_iff h hs id action
    | expire id => exact settled_expire_iff h hs id
    | postponeTry => exact iff_of_true (hcalm .postponeTry rfl rfl id) trivial
    | flushTick => exact iff_of_true (hcalm .flushTick rfl rfl id) trivial
    | int2 => exact iff_of_true (hcalm .int2 rfl rfl id) trivial
    | heartbeatTick =>
      refine iff_of_true (hcalm .heartbeatTick rfl rfl fun hafter => ?_) trivial
      have hif : (if Avr.Reports t.avr.state then false else t.avr.state.isConnected) = true :=
        hafter
      split at hif
      · cases hif
      · exact hif
  | decodeStep => exact settled_decode_iff h hs
  | restart trackRegexList firstByte =>
    have hflight : (composedStep t (.restart trackRegexList firstByte)).up =
        [Avr.versionMessage.body] :=
      Composed.up_eq (t := composedStep t (.restart trackRegexList firstByte))
        (restart_upward h hc)
    have hpending : (composedStep t (.restart trackRegexList firstByte)).pendingSuspend =
        false := by
      unfold Composed.pendingSuspend
      rw [hflight]
      rfl
    have hconnected := Avr.int3Vect_connected t.avr.state
    have hdrain := Avr.holdStep_drain h.hold.wired .int3
    unfold Composed.Settled
    rw [hpending]
    unfold composedStep KeepsAgree
    dsimp only
    rw [hconnected,
      show (Avr.int3Vect t.avr.state).flush.drain = t.avr.state.flush.drain from hdrain]
    exact ⟨fun hk hc => (hk hc).symm, fun hk hc => (hk hc).symm⟩
  | handleMcu => exact iff_of_true (hlive _ (settled_popMcu hs)) trivial
  | handleStatus =>
    refine iff_of_true (hlive _ ?_) trivial
    unfold Composed.piStep
    dsimp only
    rcases popStatus_cases t with he | ⟨status, rest, -, he | ⟨handle, hstatus, he⟩⟩
    · rw [he]
      exact hs
    · rw [he]
      exact hs
    · obtain ⟨pushed, commands, content, serialId, -, rfl⟩ := handleStatus_answers hstatus
      rw [he]
      exact hs
  | _ => exact iff_of_true (hquiet trivial) trivial

/-! ### Whole runs -/

theorem composedInit_settled : composedInit.Settled := by
  intro hc
  have hoff : composedInit.avr.state.isConnected = false := Avr.init_connected
  rw [hoff] at hc
  cases hc

/-- The flag the Pi comes to is the drain flag, in every state of a run that loses no
byte exactly when each step that changes one of them is told or changes nothing for the
Pi. -/
theorem settled_iff {es : List ComposedEvent} (hc : Along composedStep Clear composedInit es) :
    Throughout composedStep Composed.Settled composedInit es ↔
      Along composedStep KeepsAgree composedInit es :=
  throughout_iff_along_of_along (fun _ _ h _ hc _ => composedSound_step h hc)
    (fun _ _ h hs hc => settled_step_iff h hs hc) hc composedInit_sound composedInit_settled

/-- `start` of `mcu_handle_t` exchanges IDLE, `rounds` times and once more. -/
def brought (rounds : ℕ) : List ComposedEvent :=
  let round : List ComposedEvent :=
    .pi :: List.replicate 4 ComposedEvent.exchange ++ [ComposedEvent.pi, .pi]
  .interrupt true :: .pi :: .pi :: (List.replicate rounds round).flatten ++
    .interrupt false :: round

/-- It sends a message, whose frame has `bytes` bytes. -/
def sent (bytes : ℕ) : List ComposedEvent :=
  .pi :: .pi :: List.replicate bytes ComposedEvent.exchange ++ [ComposedEvent.pi]

/-- `decode` is invoked with what has come down. -/
def decoded (frames : ℕ) : List ComposedEvent := List.replicate (6 * frames) .decodeStep

/-- What has come up is taken by `handle_t`. -/
def taken (msgs : ℕ) : List ComposedEvent := List.replicate msgs .handleMcu

/-- The daemon starts and its HANDSHAKE is decoded. -/
def started : List ComposedEvent :=
  .restart [] 0 :: brought 1 ++ taken 1 ++ sent 4 ++ decoded 3

/-- The menu is opened and closed again with the Pi connected. -/
@[irreducible] def menuClosed : List ComposedEvent :=
  started ++ .avr (.rotor Avr.rotorVolume 0) :: brought 2 ++ taken 1 ++
    [ComposedEvent.avr (.expire .menu)]

end LedServer
