import LedServer.ReplyHold

set_option autoImplicit false

/-!
# `mode_is_connnected` and the link

`mode_set` raises the flag on the way to `MODE_RADIO` and lowers it on the way
to `MODE_WATCH`, whoever calls it: the link, or the menu that goes back to the
mode it was opened in.
-/
namespace LedServer.Avr
open AvrRing Machine

/-! ### Only `mode_set` touches the flag -/

theorem connected_ite {p : Prop} [Decidable p] {a b : State} {c : Bool} (ha : a.isConnected = c)
    (hb : b.isConnected = c) : (if p then a else b).isConnected = c := by
  split
  · exact ha
  · exact hb

theorem connected_ite_fst {α : Type} {p : Prop} [Decidable p] {a b : State × α} {c : Bool}
    (ha : a.1.isConnected = c) (hb : b.1.isConnected = c) :
    (if p then a else b).1.isConnected = c := by
  split
  · exact ha
  · exact hb

theorem modeSet_connected (s : State) (m : Mode) :
    (modeSet s m).isConnected =
      if s.currentMode = m then s.isConnected
      else match m with
        | .watch => false
        | .radio => true
        | .menu => s.isConnected := by
  unfold modeSet heartbeatStart heartbeatCancel
  by_cases h : s.currentMode = m
  · rw [if_pos h, if_pos h]
  · rw [if_neg h, if_neg h]
    cases m <;> rfl

/-- Opening the menu keeps the flag. -/
theorem modeSet_menu_connected (s : State) : (modeSet s .menu).isConnected = s.isConnected := by
  rw [modeSet_connected]
  split <;> rfl

@[simp] theorem sendMessage0_connected (s : State) (msgId : Byte) :
    (sendMessage0 s msgId).isConnected = s.isConnected := by
  apply connected_ite <;> rfl

@[simp] theorem sendMessage1_connected (s : State) (msgId a : Byte) :
    (sendMessage1 s msgId a).isConnected = s.isConnected := by
  apply connected_ite <;> rfl

@[simp] theorem sendMessage2_connected (s : State) (msgId a b : Byte) :
    (sendMessage2 s msgId a b).isConnected = s.isConnected := by
  apply connected_ite <;> rfl

@[simp] theorem sendMessage3_connected (s : State) (a b c : Byte) :
    (sendMessage3 s a b c).isConnected = s.isConnected := by
  apply connected_ite <;> rfl

theorem querySource_connected (s : State) : (querySource s).isConnected = s.isConnected := by
  unfold querySource
  apply connected_ite rfl
  apply connected_ite rfl
  exact sendMessage1_connected s _ _

theorem scheduleTag_connected (s : State) : (scheduleTag s).isConnected = s.isConnected := by
  unfold scheduleTag
  apply connected_ite rfl
  apply connected_ite <;> rfl

theorem tagRequest_connected (s : State) : (tagRequest s).isConnected = s.isConnected := by
  unfold tagRequest
  apply connected_ite rfl
  apply connected_ite rfl
  apply connected_ite rfl
  exact sendMessage2_connected s _ _ _

theorem turnSame_connected (s : State) (id action : Byte) :
    (turnSame s id action).isConnected = s.isConnected := by
  unfold turnSame
  cases s.menu.state with
  | value =>
    dsimp only
    rw [scheduleTag_connected]
    apply connected_ite
    · rw [querySource_connected]
    · rfl
  | _ => rfl

theorem turnOther_connected (s : State) (id action : Byte) :
    (turnOther s id action).isConnected = s.isConnected := by
  unfold turnOther
  cases rotorToState id with
  | apply => rfl
  | param => rfl
  | _ =>
    dsimp only
    rw [querySource_connected]

theorem stopAction_connected (s : State) (param : Byte) :
    (stopAction s param).isConnected = s.isConnected :=
  stopAction_cases (P := fun a => a.isConnected = s.isConnected) s rfl (fun _ => rfl)
    (sendMessage3_connected s) (sendMessage1_connected s msgIdPoweroff)
    (sendMessage0_connected s msgIdReboot) rfl param

/-- Entering the picture of a name goes to radio mode; no other state changes the flag. -/
theorem setState_connected (s : State) (new : MenuState) :
    (setState s new).isConnected =
      if new = .tag ∧ s.menu.state ≠ .tag then (modeSet s .radio).isConnected
      else s.isConnected := by
  unfold setState
  by_cases hsame : s.menu.state = new
  · have hno : ¬ (new = .tag ∧ s.menu.state ≠ .tag) := fun h => h.2 (hsame.trans h.1)
    rw [if_pos hsame, if_neg hno]
  rw [if_neg hsame]
  dsimp only
  by_cases htag : s.menu.state = .tag
  · have hno : ¬ (new = .tag ∧ s.menu.state ≠ .tag) := fun h => h.2 htag
    rw [if_pos htag, if_neg hno, modeSet_menu_connected]
    exact sendMessage0_connected s _
  rw [if_neg htag]
  by_cases hnew : new = .tag
  · have hmode : ∀ a b : State, a.currentMode = b.currentMode → a.isConnected = b.isConnected →
        (modeSet a .radio).isConnected = (modeSet b .radio).isConnected := by
      intro a b hm hc
      rw [modeSet_connected, modeSet_connected, hm, hc]
    rw [if_pos hnew, if_pos ⟨hnew, htag⟩]
    apply hmode
    · exact congrArg Panel.mode (panelOf_sendMessage0
        { s with flush := flushShiftDrainStop s.flush } msgIdResume)
    · exact sendMessage0_connected _ _
  · have hno : ¬ (new = .tag ∧ s.menu.state ≠ .tag) := fun h => hnew h.1
    rw [if_neg hnew, if_neg hno]

theorem start_connected (s : State) (rotorId : Byte) :
    (start s rotorId).isConnected = s.isConnected := by
  unfold start
  apply connected_ite rfl
  dsimp only
  rw [sendMessage0_connected, modeSet_menu_connected]
  rfl

theorem menuHandleRotor_connected (s : State) (id action : Byte) :
    (menuHandleRotor s id action).isConnected = s.isConnected := by
  obtain ⟨-, hnt⟩ := rotorToState_open id
  have hschedule : ∀ (s : State) (delay : Byte),
      (schedule s delay).isConnected = s.isConnected := fun _ _ => rfl
  unfold menuHandleRotor
  apply connected_ite rfl
  apply connected_ite
  · rw [hschedule, turnSame_connected]
  · dsimp only
    rw [hschedule, turnOther_connected, setState_connected, if_neg fun h => hnt h.1]
    exact connected_ite (start_connected s id) rfl

/-- In radio and in watch mode the flag is as `mode_set` has left it. -/
structure FlagSound (s : State) : Prop where
  radio : s.currentMode = .radio → s.isConnected = true
  watch : s.currentMode = .watch → s.isConnected = false

/-- The flag in a mode that a state `s` has come to. -/
def flagIn (s : State) : Mode → Bool
  | .menu => s.isConnected
  | .radio => true
  | .watch => false

theorem FlagSound.of_same {s s' : State} (h : FlagSound s)
    (hm : s'.currentMode = s.currentMode ∨ s'.currentMode = .menu)
    (hc : s'.isConnected = s.isConnected) : FlagSound s' := by
  constructor
  · intro hr
    rw [hc]
    rcases hm with hm | hm
    · exact h.radio (hm.symm.trans hr)
    · exact absurd (hm.symm.trans hr) (by decide)
  · intro hw
    rw [hc]
    rcases hm with hm | hm
    · exact h.watch (hm.symm.trans hw)
    · exact absurd (hm.symm.trans hw) (by decide)

theorem FlagSound.modeSet {s : State} (h : FlagSound s) (m : Mode) :
    (modeSet s m).isConnected = flagIn s m := by
  rw [modeSet_connected]
  by_cases hm : s.currentMode = m
  · rw [if_pos hm]
    subst hm
    cases hmode : s.currentMode with
    | menu => rfl
    | watch => exact h.watch hmode
    | radio => exact h.radio hmode
  · rw [if_neg hm]
    cases m <;> rfl

/-- Closing the menu sets the flag by the mode gone back to. -/
theorem stop_connected {s : State} (h : FlagSound s) :
    (stop s).isConnected = flagIn s s.menu.backupMode := by
  let a := if s.menu.state = .tag then setState s .value else s
  let b := stopAction a (stopParam a.menu)
  let c : State := { b with flush := flushShiftDrainStop b.flush }
  have ha : a.isConnected = s.isConnected := by
    apply connected_ite _ rfl
    rw [setState_connected, if_neg fun hn => absurd hn.1 (by decide)]
  have hc : c.isConnected = s.isConnected := (stopAction_connected a _).trans ha
  have hpanel : panelOf a = if s.menu.state = .tag then (panelOf s).setState .value else panelOf s := by
    unfold a
    split
    · exact panelOf_setState s .value
    · rfl
  have hb : panelOf b = panelOf a := panelOf_stopAction a _
  have hmode : c.currentMode = s.currentMode ∨ c.currentMode = .menu := by
    have hcb : c.currentMode = (panelOf a).mode := congrArg Panel.mode hb
    rw [hcb, hpanel]
    split
    · right
      rename_i htag
      rw [Panel.setState, if_neg (by rw [show (panelOf s).state = .tag from htag]; simp),
        if_pos (show (panelOf s).state = .tag from htag)]
    · exact .inl rfl
  have hbackup : c.menu.backupMode = s.menu.backupMode := by
    have hcb : c.menu.backupMode = (panelOf a).backup := congrArg Panel.backup hb
    rw [hcb, hpanel]
    split
    · unfold Panel.setState
      split_ifs <;> rfl
    · rfl
  have hflag : (modeSet c c.menu.backupMode).isConnected = flagIn c c.menu.backupMode :=
    (h.of_same hmode hc).modeSet _
  have hstop : (stop s).isConnected = (modeSet c c.menu.backupMode).isConnected :=
    sendMessage0_connected _ _
  rw [hstop, hflag, hbackup]
  cases s.menu.backupMode with
  | menu => exact hc
  | _ => rfl

/-! ### The link as it was last heard of -/

/-- The state and whether the last event of the link was a HANDSHAKE. -/
structure Linked where
  state : State
  handshaken : Bool

/-- The heartbeat that reports the loss of the Pi. -/
def Reports (s : State) : Prop :=
  s.timers.callbackArray .idHeartbeat = some .heartbeatVerify ∧ Loses s.heartbeat

instance (s : State) : Decidable (Reports s) := inferInstanceAs (Decidable (_ ∧ _))

def linkEvent (s : State) (handshaken : Bool) : HoldEvent → Bool
  | .message m _ => if m.id = msgIdHandshake then true else handshaken
  | .heartbeatTick => if Reports s then false else handshaken
  | _ => handshaken

def linkedStep (t : Linked) (e : HoldEvent) : Linked :=
  ⟨holdStep t.state e, linkEvent t.state t.handshaken e⟩

def ConnectedSound (t : Linked) : Prop := t.state.isConnected = t.handshaken

/-- The picture of a name is opened, and the menu closed, only towards the mode
the link is in. -/
def KeepsLink (t : Linked) : HoldEvent → Prop
  | .message m _ => OpensTag t.state m → t.handshaken = true
  | .expire id => id = .menu ∧ t.state.timers.callback .menu ≠ none →
      (t.state.menu.backupMode = .radio → t.handshaken = true) ∧
        (t.state.menu.backupMode = .watch → t.handshaken = false)
  | _ => True

instance (t : Linked) : (e : HoldEvent) → Decidable (KeepsLink t e)
  | .message .. => inferInstanceAs (Decidable (_ → _))
  | .expire _ => inferInstanceAs (Decidable (_ ∧ _ → _ ∧ _))
  | .exchange _ | .postponeTry | .rotor .. | .flushTick | .heartbeatTick | .int2 | .int3 =>
    .isTrue trivial

structure LinkedSound (t : Linked) : Prop where
  hold : HoldSound t.state
  flag : FlagSound t.state

/-! ### One step -/

theorem reply_connected (s : State) (status msgId : Byte) :
    (reply s status msgId).isConnected = s.isConnected := rfl

theorem menuParameterValue_connected (s : State) (parameter value min max : Byte) :
    (menuParameterValue s parameter value min max).1.isConnected = s.isConnected := by
  apply connected_ite_fst <;> rfl

theorem menuParameterName_connected (s : State) (parameter id : Byte) :
    (menuParameterName s parameter id).1.isConnected =
      if NameMatches s.menu parameter id ∧ s.menu.state ≠ .tag then (modeSet s .radio).isConnected
      else s.isConnected := by
  have hschedule : (modeSet (schedule s delayRead) .radio).isConnected =
      (modeSet s .radio).isConnected := by
    rw [modeSet_connected, modeSet_connected]
    rfl
  rw [menuParameterName_state]
  by_cases hmatch : NameMatches s.menu parameter id
  · rw [if_pos hmatch, setState_connected, hschedule]
    simp only [hmatch, true_and]
    rfl
  · rw [if_neg hmatch, if_neg fun h => hmatch h.1]

/-- A message changes the flag if it opens the picture of a name or is the HANDSHAKE. -/
theorem receive_connected {s : State} (h : FlagSound s) (m : Message) :
    (receive s m).isConnected =
      if OpensTag s m ∨ m.id = msgIdHandshake then true else s.isConnected := by
  have hdone : (receive s m).isConnected =
      (decode { s with decoder := arrive s.decoder m }).isConnected := rfl
  have hmode : ∀ s' : State, s'.currentMode = s.currentMode → s'.isConnected = s.isConnected →
      (modeSet s' .radio).isConnected = true := by
    intro s' hm hc
    exact (h.of_same (.inl hm) hc).modeSet .radio
  -- a message that neither is a QUERY_NAME nor the HANDSHAKE
  have hneither : ∀ {id : Byte}, (arrive s.decoder m).msgId = id → id ≠ msgIdQueryName →
      id ≠ msgIdHandshake →
      ¬ (OpensTag s m ∨ m.id = msgIdHandshake) := by
    rintro id rfl hname hshake
    exact not_or.mpr ⟨fun ho => hname ho.1, hshake⟩
  have hcase := decode_case { s with decoder := arrive s.decoder m }
  rw [hdone]
  generalize decode { s with decoder := arrive s.decoder m } = r at hcase ⊢
  cases hcase with
  | ledArray hid =>
    rw [if_neg (hneither hid (by decide) (by decide)), reply_connected]
    rfl
  | queryName hid status =>
    have hname : m.id = msgIdQueryName := hid
    have hshake : m.id ≠ msgIdHandshake := by rw [hname]; decide
    rw [reply_connected]
    refine (menuParameterName_connected _ _ _).trans ?_
    by_cases hopens : OpensTag s m
    · have hyes : OpensTag s m ∨ m.id = msgIdHandshake := .inl hopens
      refine (if_pos hopens.2).trans (Eq.trans (hmode _ ?_ ?_) (if_pos hyes).symm)
      · rfl
      · rfl
    · have hno : ¬ (OpensTag s m ∨ m.id = msgIdHandshake) := not_or.mpr ⟨hopens, hshake⟩
      exact (if_neg fun hm => hopens ⟨hname, hm⟩).trans (if_neg hno).symm
  | queryNumber hid status =>
    rw [if_neg (hneither hid (by decide) (by decide)), reply_connected,
      menuParameterValue_connected]
    rfl
  | idle hid =>
    rw [if_neg (hneither hid (by decide) (by decide))]
    rfl
  | syncClock hid =>
    rw [if_neg (hneither hid (by decide) (by decide)), reply_connected]
    rfl
  | handshake hid =>
    have hyes : OpensTag s m ∨ m.id = msgIdHandshake := .inr hid
    rw [if_pos hyes]
    exact hmode _ rfl rfl
  | unknown led name number idle clock shake =>
    rw [if_neg (hneither rfl name shake), reply_connected]
    rfl

theorem atExpire_connected {s : State} (hw : Wired s) (h : FlagSound s) (id : AtId) :
    (atExpire s id).isConnected =
      if id = .menu ∧ s.timers.callback id ≠ none then flagIn s s.menu.backupMode
      else s.isConnected := by
  unfold atExpire
  cases hcb : s.timers.callback id with
  | none => rw [if_neg (by simp)]
  | some cb =>
    have hcb' : cb = id.owner := hw.table id cb hcb
    subst hcb'
    have hrun : (runAtCallback s id.owner).isConnected =
        if id = .menu ∧ some id.owner ≠ none then flagIn s s.menu.backupMode
        else s.isConnected := by
      cases id with
      | boot => rfl
      | menu => exact stop_connected h
      | menuTag => exact tagRequest_connected s
      | spi => rfl
    exact connected_ite hrun hrun

theorem heartbeat_connected {s : State} (hw : Wired s) (h : FlagSound s) :
    (holdStep s .heartbeatTick).isConnected =
      if Reports s then false else s.isConnected := by
  rw [holdStep]
  by_cases hcron : s.timers.callbackArray .idHeartbeat = some .heartbeatVerify
  · rw [if_pos hcron]
    unfold heartbeatVerify
    dsimp only
    by_cases hmiss : s.heartbeat.currentMisses + 1 ≥ s.heartbeat.maxMisses
    · rw [if_pos hmiss]
      rcases hw.report with hr | hr
      · have hno : ¬ Reports s := by
          rintro ⟨-, -, hl⟩
          rw [hr] at hl
          cases hl
        rw [if_neg hno, hr]
        rfl
      · have hyes : Reports s := ⟨hcron, hmiss, hr⟩
        rw [if_pos hyes, hr]
        refine FlagSound.modeSet (FlagSound.of_same h ?_ ?_) .watch
        · exact .inl rfl
        · rfl
    · have hno : ¬ Reports s := fun hr => hmiss hr.2.1
      rw [if_neg hmiss, if_neg hno]
      apply connected_ite _ rfl
      rcases hw.provoke with hp | hp <;> rw [hp] <;> rfl
  · have hno : ¬ Reports s := fun hr => hcron hr.1
    rw [if_neg hcron, if_neg hno]

theorem int3Vect_connected (s : State) : (int3Vect s).isConnected = s.isConnected := by
  simp only [int3Vect]

theorem twi_connected (s : State) (t : AvrTwi.Twi) : { s with twi := t }.isConnected = s.isConnected := rfl

/-- What the flag is after a step. -/
def connectedAfter (s : State) : HoldEvent → Bool
  | .message m _ => if OpensTag s m ∨ m.id = msgIdHandshake then true else s.isConnected
  | .expire id =>
    if id = .menu ∧ s.timers.callback id ≠ none then flagIn s s.menu.backupMode
    else s.isConnected
  | .heartbeatTick => if Reports s then false else s.isConnected
  | _ => s.isConnected

theorem holdStep_connected {s : State} (hi : HoldSound s) (h : FlagSound s) (e : HoldEvent) :
    (holdStep s e).isConnected = connectedAfter s e := by
  cases e with
  | message m fits => exact receive_connected h m
  | exchange received => rfl
  | postponeTry => rfl
  | rotor id action => exact menuHandleRotor_connected s id action
  | expire id => exact atExpire_connected hi.wired h id
  | flushTick => apply connected_ite <;> rfl
  | heartbeatTick => exact heartbeat_connected hi.wired h
  | int2 => exact twi_connected s _
  | int3 => exact int3Vect_connected s

/-- The mode after a step is the one before, the menu, or one `mode_set` has put
the flag right for. -/
theorem holdStep_mode {s : State} (hi : HoldSound s) (e : HoldEvent) :
    (holdStep s e).currentMode = .menu ∨
      ((holdStep s e).currentMode = s.currentMode ∧ connectedAfter s e = s.isConnected) ∨
      ((holdStep s e).currentMode = .radio ∧ connectedAfter s e = true) ∨
      ((holdStep s e).currentMode = .watch ∧ connectedAfter s e = false) := by
  cases e with
  | message m fits =>
    obtain ⟨-, ⟨hopens, hmode⟩ | ⟨hclosed, hshake, hmode, -⟩⟩ := receive_panel hi.panel fits
    · exact .inr (.inr (.inl ⟨hmode, if_pos hopens⟩))
    · exact .inr (.inl ⟨hmode, if_neg (not_or.mpr ⟨hclosed, hshake⟩)⟩)
  | rotor id action =>
    obtain ⟨hni, hnt⟩ := rotorToState_open id
    have hmode := congrArg Panel.mode (panelOf_menuHandleRotor s id action)
    rcases Panel.rotor_cases (panelOf s) hni hnt with he | ⟨-, -, he⟩ | ⟨backup, he⟩
    · rw [he] at hmode
      exact .inr (.inl ⟨hmode, rfl⟩)
    · rw [he] at hmode
      exact .inr (.inl ⟨hmode, rfl⟩)
    · rw [he] at hmode
      exact .inl hmode
  | expire id =>
    have hmode := congrArg Panel.mode (panelOf_atExpire hi.wired.table id)
    by_cases hmenu : id = .menu ∧ s.timers.callback id ≠ none
    · rw [if_pos hmenu] at hmode
      have hback : (holdStep s (.expire id)).currentMode = s.menu.backupMode := hmode
      have hflag : connectedAfter s (.expire id) = flagIn s s.menu.backupMode := if_pos hmenu
      rw [hback, hflag]
      cases s.menu.backupMode with
      | menu => exact .inl rfl
      | radio => exact .inr (.inr (.inl ⟨rfl, rfl⟩))
      | watch => exact .inr (.inr (.inr ⟨rfl, rfl⟩))
    · rw [if_neg hmenu] at hmode
      exact .inr (.inl ⟨hmode, if_neg hmenu⟩)
  | heartbeatTick =>
    by_cases hcron : s.timers.callbackArray .idHeartbeat = some .heartbeatVerify
    · have hstep : holdStep s .heartbeatTick = heartbeatVerify s := if_pos hcron
      have hmode := congrArg Panel.mode (panelOf_heartbeatVerify hi.wired)
      rw [hstep]
      by_cases hlost : Loses s.heartbeat
      · rw [if_pos hlost] at hmode
        have hreports : Reports s := ⟨hcron, hlost⟩
        exact .inr (.inr (.inr ⟨hmode, if_pos hreports⟩))
      · rw [if_neg hlost] at hmode
        have hquiet : ¬ Reports s := fun h => hlost h.2
        exact .inr (.inl ⟨hmode, if_neg hquiet⟩)
    · have hstep : holdStep s .heartbeatTick = s := if_neg hcron
      have hquiet : ¬ Reports s := fun h => hcron h.1
      rw [hstep]
      exact .inr (.inl ⟨rfl, if_neg hquiet⟩)
  | flushTick =>
    refine .inr (.inl ⟨?_, rfl⟩)
    rw [holdStep]
    split <;> rfl
  | int3 => exact .inr (.inl ⟨congrArg Panel.mode (panelOf_int3Vect s), rfl⟩)
  | exchange received => exact .inr (.inl ⟨rfl, rfl⟩)
  | postponeTry => exact .inr (.inl ⟨rfl, rfl⟩)
  | int2 => exact .inr (.inl ⟨congrArg Panel.mode (panelOf_twi s _), rfl⟩)

theorem flag_sound_step {s : State} (hi : HoldSound s) (h : FlagSound s) (e : HoldEvent) :
    FlagSound (holdStep s e) := by
  have hflag := holdStep_connected hi h e
  rcases holdStep_mode hi e with hm | ⟨hm, hc⟩ | ⟨hm, hc⟩ | ⟨hm, hc⟩
  · constructor
    all_goals
      intro hn
      rw [hm] at hn
      cases hn
  · exact h.of_same (.inl hm) (hflag.trans hc)
  · refine ⟨fun _ => hflag.trans hc, fun hn => ?_⟩
    rw [hm] at hn
    cases hn
  · refine ⟨fun hn => ?_, fun _ => hflag.trans hc⟩
    rw [hm] at hn
    cases hn

theorem linked_sound_step {t : Linked} (h : LinkedSound t) (e : HoldEvent) :
    LinkedSound (linkedStep t e) :=
  ⟨hold_sound_step h.hold e, flag_sound_step h.hold h.flag e⟩

/-! ### Whole runs -/

theorem connected_step_iff {t : Linked} (h : LinkedSound t) (hs : ConnectedSound t)
    (e : HoldEvent) : ConnectedSound (linkedStep t e) ↔ KeepsLink t e := by
  have hflag := holdStep_connected h.hold h.flag e
  have hsame : t.state.isConnected = t.handshaken := hs
  unfold ConnectedSound linkedStep
  dsimp only
  rw [hflag]
  cases e with
  | message m fits =>
    simp only [connectedAfter, linkEvent, KeepsLink]
    by_cases hshake : m.id = msgIdHandshake
    · have hclosed : ¬ OpensTag t.state m := by
        intro ho
        have hid := ho.1
        rw [hshake] at hid
        exact absurd hid (by decide)
      rw [if_pos (.inr hshake), if_pos hshake]
      exact iff_of_true rfl fun ho => absurd ho hclosed
    · rw [if_neg hshake]
      by_cases hopens : OpensTag t.state m
      · rw [if_pos (.inl hopens)]
        exact ⟨fun hf _ => hf.symm, fun hk => (hk hopens).symm⟩
      · rw [if_neg (not_or.mpr ⟨hopens, hshake⟩)]
        exact iff_of_true hsame fun ho => absurd ho hopens
  | expire id =>
    simp only [connectedAfter, linkEvent, KeepsLink]
    by_cases hmenu : id = .menu ∧ t.state.timers.callback id ≠ none
    · obtain ⟨rfl, hcb⟩ := hmenu
      have hmenu : AtId.menu = AtId.menu ∧ t.state.timers.callback .menu ≠ none := ⟨rfl, hcb⟩
      rw [if_pos hmenu]
      cases t.state.menu.backupMode with
      | menu => exact iff_of_true hsame fun _ => ⟨Mode.noConfusion, Mode.noConfusion⟩
      | radio =>
        exact ⟨fun hf _ => ⟨fun _ => hf.symm, Mode.noConfusion⟩, fun hk => ((hk hmenu).1 rfl).symm⟩
      | watch =>
        exact ⟨fun hf _ => ⟨Mode.noConfusion, fun _ => hf.symm⟩, fun hk => ((hk hmenu).2 rfl).symm⟩
    · have hno : ¬ (id = .menu ∧ t.state.timers.callback .menu ≠ none) := by
        rintro ⟨rfl, hcb⟩
        exact hmenu ⟨rfl, hcb⟩
      rw [if_neg hmenu]
      exact iff_of_true hsame fun hm => absurd hm hno
  | heartbeatTick =>
    simp only [connectedAfter, linkEvent, KeepsLink]
    by_cases hlost : Reports t.state
    · rw [if_pos hlost, if_pos hlost]
      exact iff_of_true rfl trivial
    · rw [if_neg hlost, if_neg hlost]
      exact iff_of_true hsame trivial
  | _ => exact iff_of_true hsame trivial

theorem init_linkedSound : LinkedSound ⟨init, false⟩ := by
  refine ⟨init_holdSound, ?_, ?_⟩
  · exact fun h => absurd h (by decide +kernel)
  · exact fun _ => by decide +kernel

theorem init_connected : init.isConnected = false := by
  decide +kernel

/-- From power on, the flag says what the link has last said, in every state of
a run exactly when no step of the menu goes to a mode the link is not in. -/
theorem connected_iff_handshaken (es : List HoldEvent) :
    Throughout linkedStep ConnectedSound ⟨init, false⟩ es ↔
      Along linkedStep KeepsLink ⟨init, false⟩ es :=
  throughout_iff_along (fun _ e h _ _ => linked_sound_step h e)
    (fun _ e h hs => connected_step_iff h hs e) init_linkedSound init_connected

/-- The menu is opened before the Pi is up and closes after the HANDSHAKE. -/
def openedEarly : List HoldEvent :=
  [.rotor rotorVolume 0, .message ⟨0, msgIdHandshake, []⟩ (Nat.zero_le _), .expire .menu]

theorem handshake_forgotten :
    (run linkedStep ⟨init, false⟩ openedEarly).handshaken = true ∧
      (run linkedStep ⟨init, false⟩ openedEarly).state.isConnected = false := by
  decide +kernel

end LedServer.Avr
