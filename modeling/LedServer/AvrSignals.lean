import LedServer.AvrTells
import LedServer.SessionReset

set_option autoImplicit false

/-!
# SUSPEND and RESUME

The menu tells the Pi when it takes the display and when it gives it back, each
time next to `flush_shift_drain_start` or `flush_shift_drain_stop`.
-/
namespace LedServer.Avr
open AvrRing

def isSignal (m : Message) : Bool := m.id = msgIdSuspend || m.id = msgIdResume

def suspendMessage : Message := ⟨serialIdToIgnore, msgIdSuspend, []⟩

def resumeMessage : Message := ⟨serialIdToIgnore, msgIdResume, []⟩

theorem isSignal_of_id {m : Message} (h₁ : m.id ≠ msgIdSuspend) (h₂ : m.id ≠ msgIdResume) :
    isSignal m = false := by
  simp [isSignal, h₁, h₂]

theorem isSignal_other {id : Byte} (h₁ : id ≠ msgIdSuspend) (h₂ : id ≠ msgIdResume) :
    ∀ m : Message, m.id = id → isSignal m = false := by
  rintro m rfl
  exact isSignal_of_id h₁ h₂

theorem spoken_signal {s : State} {m : Message} (h : isSignal m = true) :
    (spoken s m).filter isSignal = spoken s m := by
  unfold spoken
  split
  · exact List.filter_cons_of_pos h
  · rfl

theorem tells_suspend (s : State) :
    Tells isSignal s.link (sendMessage0 s msgIdSuspend).link (spoken s suspendMessage) := by
  have h := tells_sendMessage0 (p := isSignal) s msgIdSuspend
  rwa [spoken_signal rfl] at h

theorem tells_resume (s : State) :
    Tells isSignal s.link (sendMessage0 s msgIdResume).link (spoken s resumeMessage) := by
  have h := tells_sendMessage0 (p := isSignal) s msgIdResume
  rwa [spoken_signal rfl] at h

theorem silent_sendMessage3 (s : State) (parameter sign abs : Byte) :
    Tells isSignal s.link (sendMessage3 s parameter sign abs).link [] := by
  have h := tells_sendMessage3 (p := isSignal) s parameter sign abs
  have hnone : (spoken s (paramSetMessage parameter sign abs)).filter isSignal = [] := by
    unfold spoken
    split <;> rfl
  rwa [hnone] at h

theorem tells_setState (s : State) (new : MenuState) :
    Tells isSignal s.link (setState s new).link
      (if s.menu.state = new then [] else if s.menu.state = .tag then spoken s suspendMessage
        else if new = .tag then spoken s resumeMessage else []) := by
  unfold setState
  by_cases hsame : s.menu.state = new
  · rw [if_pos hsame, if_pos hsame]
    exact .refl _
  rw [if_neg hsame, if_neg hsame]
  dsimp only
  by_cases htag : s.menu.state = .tag
  · rw [if_pos htag, if_pos htag]
    exact (tells_suspend s).before (tells_modeSet { sendMessage0 s msgIdSuspend with
      flush := flushShiftDrainStart (sendMessage0 s msgIdSuspend).flush } .menu)
  rw [if_neg htag, if_neg htag]
  by_cases hnew : new = .tag
  · rw [if_pos hnew, if_pos hnew]
    exact (tells_resume { s with flush := flushShiftDrainStop s.flush }).before (tells_modeSet _ _)
  · rw [if_neg hnew, if_neg hnew]
    exact .refl _

theorem tells_start (s : State) {rotorId : Byte} (h : rotorId ≠ rotorApply) :
    Tells isSignal s.link (start s rotorId).link (spoken s suspendMessage) := by
  let a : State := { reset s with menu := { (reset s).menu with backupMode := s.currentMode } }
  have hlink : (modeSet a .menu).link = s.link := modeSet_link a .menu
  have hflag : (modeSet a .menu).isConnected = s.isConnected := modeSet_menu_connected a
  have hspoken : spoken (modeSet a .menu) suspendMessage = spoken s suspendMessage := by
    unfold spoken
    rw [hlink, hflag]
  have hsend := tells_suspend (modeSet a .menu)
  have hstart : (start s rotorId).link = (sendMessage0 (modeSet a .menu) msgIdSuspend).link := by
    unfold start
    rw [if_neg h]
    rfl
  rw [hstart]
  rwa [hlink, hspoken] at hsend

theorem tells_stopAction (s : State) (param : Byte) :
    Tells isSignal s.link (stopAction s param).link [] := by
  have poweroff : ∀ delay, Tells isSignal s.link (sendMessage1 s msgIdPoweroff delay).link [] :=
    fun delay => tells_sendMessage1 (p := isSignal) s msgIdPoweroff delay
      (isSignal_other (by decide) (by decide))
  have reboot : Tells isSignal s.link (sendMessage0 s msgIdReboot).link [] :=
    tells_send_silent s (m := ⟨serialIdToIgnore, msgIdReboot, []⟩) rfl (by simp) rfl
  exact stopAction_cases (P := fun a => Tells isSignal s.link a.link []) s (.refl _)
    (fun _ => .refl _) (silent_sendMessage3 s) poweroff reboot (.refl _) param

/-- The state in which `stop` comes to encode RESUME. -/
def closing (s : State) : State :=
  let s := if s.menu.state = .tag then setState s .value else s
  let s := stopAction s (stopParam s.menu)
  let s := { s with flush := flushShiftDrainStop s.flush }
  modeSet s s.menu.backupMode

theorem tells_stop (s : State) :
    Tells isSignal s.link (stop s).link
      ((if s.menu.state = .tag then spoken s suspendMessage else []) ++
        spoken (closing s) resumeMessage) := by
  let a := if s.menu.state = .tag then setState s .value else s
  have ha : Tells isSignal s.link a.link
      (if s.menu.state = .tag then spoken s suspendMessage else []) := by
    unfold a
    by_cases htag : s.menu.state = .tag
    · have h := tells_setState s .value
      rw [if_neg (by rw [htag]; decide), if_pos htag] at h
      rw [if_pos htag, if_pos htag]
      exact h
    · rw [if_neg htag, if_neg htag]
      exact .refl _
  have hb : Tells isSignal a.link (closing s).link [] :=
    (tells_stopAction a (stopParam a.menu)).before (.of_eq (modeSet_link _ _))
  have hstop : (stop s).link = (sendMessage0 (closing s) msgIdResume).link := rfl
  rw [hstop]
  exact (ha.before hb).trans (tells_resume (closing s))

/-- The knobs that take the display: the one that opens the menu, and any over
the picture of a name. -/
def Drains (s : State) (id : Byte) : Prop :=
  s.menu.state = .tag ∨ (s.menu.state = .idle ∧ rotorToState id ≠ .apply)

instance (s : State) (id : Byte) : Decidable (Drains s id) := inferInstanceAs (Decidable (_ ∨ _))

theorem tells_menuHandleRotor (s : State) (id action : Byte) :
    Tells isSignal s.link (menuHandleRotor s id action).link
      (if Drains s id then spoken s suspendMessage else []) := by
  obtain ⟨hni, hnt⟩ := rotorToState_open id
  have hquery : ∀ m : Message, m.id = msgIdQueryNumber → isSignal m = false :=
    isSignal_other (by decide) (by decide)
  unfold menuHandleRotor
  by_cases hidle : rotorToState id = .apply ∧ s.menu.state = .idle
  · have hno : ¬ Drains s id := by
      rintro (htag | ⟨-, hn⟩)
      · rw [hidle.2] at htag
        cases htag
      · exact hn hidle.1
    rw [if_pos hidle, if_neg hno]
    exact .refl _
  rw [if_neg hidle]
  by_cases hsame : s.menu.state = rotorToState id
  · have hno : ¬ Drains s id := by
      rintro (htag | ⟨hi, -⟩)
      · exact hnt (hsame.symm.trans htag)
      · exact hni (hsame.symm.trans hi)
    rw [if_pos hsame, if_neg hno]
    exact (tells_turnSame s id action hquery).before (tells_schedule _ _)
  rw [if_neg hsame]
  let a := if s.menu.state = .idle then start s id else s
  have hrest : Tells isSignal (setState a (rotorToState id)).link (schedule
      (turnOther (setState a (rotorToState id)) id action)
      (if rotorToState id = .apply then delayApply else delaySelect)).link [] :=
    (tells_turnOther _ id action hquery).before (tells_schedule _ _)
  refine Tells.before ?_ hrest
  by_cases hclosed : s.menu.state = .idle
  · have hopen : rotorToState id ≠ .apply := fun h => hidle ⟨h, hclosed⟩
    have hid : id ≠ rotorApply := rotorToState_apply hopen
    have ha : a = start s id := if_pos hclosed
    have hstate : (start s id).menu.state = .idle :=
      congrArg Panel.state (panelOf_start s hid)
    have hset := tells_setState (start s id) (rotorToState id)
    rw [hstate, if_neg hni.symm, if_neg (by decide), if_neg hnt] at hset
    rw [ha, if_pos (.inr ⟨hclosed, hopen⟩)]
    exact (tells_start s hid).before hset
  · have ha : a = s := if_neg hclosed
    have hset := tells_setState s (rotorToState id)
    rw [if_neg hsame] at hset
    rw [ha]
    by_cases htag : s.menu.state = .tag
    · rw [if_pos htag] at hset
      rw [if_pos (.inl htag)]
      exact hset
    · rw [if_neg htag, if_neg hnt] at hset
      have hno : ¬ Drains s id := fun h => h.elim htag fun hi => hclosed hi.1
      rw [if_neg hno]
      exact hset

theorem tells_menuParameterName (s : State) (parameter id : Byte) :
    Tells isSignal s.link (menuParameterName s parameter id).1.link
      (if NameMatches s.menu parameter id ∧ s.menu.state ≠ .tag then spoken s resumeMessage
        else []) := by
  rw [menuParameterName_state]
  by_cases hmatch : NameMatches s.menu parameter id
  · have hset := tells_setState (schedule s delayRead) .tag
    rw [if_pos hmatch]
    by_cases htag : s.menu.state = .tag
    · rw [if_pos (show (schedule s delayRead).menu.state = .tag from htag)] at hset
      rw [if_neg fun h => h.2 htag]
      exact hset
    · have hntag : ¬ (schedule s delayRead).menu.state = .tag := htag
      rw [if_neg hntag, if_neg hntag, if_pos rfl] at hset
      rw [if_pos ⟨hmatch, htag⟩]
      exact hset
  · rw [if_neg hmatch, if_neg fun h => hmatch h.1]
    exact .refl _

theorem tells_menuParameterValue {p : Message → Bool} (s : State)
    (parameter value min max : Byte) :
    Tells p s.link (menuParameterValue s parameter value min max).1.link [] := by
  unfold menuParameterValue
  exact tells_ite_fst (.refl _) (.refl _)

/-- All messages but QUERY_NAME tell nothing besides the STATUS. -/
theorem tells_decode {p : Message → Bool} (s : State) {told : List Message}
    (hp : ∀ m : Message, m.id = msgIdStatus → p m = false)
    (hname : s.decoder.msgId = msgIdQueryName → Tells p s.link
      (menuParameterName (confirmed s) (inByte s.decoder 0) (inByte s.decoder 1)).1.link told)
    (hother : s.decoder.msgId ≠ msgIdQueryName → told = []) :
    Tells p s.link (decode s).link told := by
  have hreply : ∀ (a : State) (status msgId : Byte) (told : List Message),
      Tells p s.link a.link told → Tells p s.link (reply a status msgId).link told :=
    fun a status msgId told h => h.before (tells_reply a status msgId hp)
  have hnone : ∀ {id : Byte}, s.decoder.msgId = id → id ≠ msgIdQueryName → told = [] := by
    rintro id rfl hne
    exact hother hne
  have hsame : (confirmed s).link = s.link := rfl
  have hcase := decode_case s
  generalize decode s = r at hcase ⊢
  cases hcase with
  | ledArray hid =>
    rw [hnone hid (by decide)]
    exact hreply _ _ _ _ (.refl _)
  | queryName hid status => exact hreply _ _ _ _ (hname hid)
  | queryNumber hid status =>
    rw [hnone hid (by decide)]
    exact hreply _ _ _ _ (tells_menuParameterValue (confirmed s) _ _ _ _)
  | idle hid =>
    rw [hnone hid (by decide)]
    exact .refl _
  | syncClock hid =>
    rw [hnone hid (by decide)]
    exact hreply _ _ _ _ (.refl _)
  | handshake hid =>
    rw [hnone hid (by decide)]
    exact tells_modeSet (confirmed s) .radio
  | unknown led name number idle clock shake =>
    rw [hother name]
    exact hreply _ _ _ _ (.refl _)

theorem tells_receive (s : State) (m : Message) :
    Tells isSignal s.link (receive s m).link
      (if OpensTag s m then spoken s resumeMessage else []) := by
  have hdone : (receive s m).link = (decode { s with decoder := arrive s.decoder m }).link := rfl
  rw [hdone]
  refine tells_decode { s with decoder := arrive s.decoder m }
    (isSignal_other (by decide) (by decide)) ?_ fun hne => if_neg fun ho => hne ho.1
  intro hid
  have hname : m.id = msgIdQueryName := hid
  have htells := tells_menuParameterName (confirmed { s with decoder := arrive s.decoder m })
    (inByte (arrive s.decoder m) 0) (inByte (arrive s.decoder m) 1)
  unfold OpensTag
  simp only [hname, true_and]
  exact htells

theorem tells_atExpire {p : Message → Bool} {s : State} (h : TableSound s.timers.callback)
    (id : AtId) {told : List Message} (hstop : Tells p s.link (stop s).link told)
    (hname : ∀ m : Message, m.id = msgIdQueryName → p m = false) :
    Tells p s.link (atExpire s id).link
      (if id = .menu ∧ s.timers.callback id ≠ none then told else []) := by
  unfold atExpire
  cases hcb : s.timers.callback id with
  | none =>
    rw [if_neg (by simp)]
    exact .refl _
  | some cb =>
    have hcb' : cb = id.owner := h id cb hcb
    subst hcb'
    have hrun : Tells p s.link (runAtCallback s id.owner).link
        (if id = .menu ∧ some id.owner ≠ none then told else []) := by
      cases id with
      | boot => exact .refl _
      | menu => exact hstop
      | menuTag => exact tells_tagRequest s hname
      | spi => exact tells_pins s.link s.link.irq false
    exact tells_ite hrun hrun

theorem tells_twi {p : Message → Bool} (s : State) (t : AvrTwi.Twi) :
    Tells p s.link { s with twi := t }.link [] := .refl _

theorem tells_int3Vect {p : Message → Bool} (s : State)
    (hp : ∀ m : Message, m.id = msgIdVersion → p m = false) :
    Tells p s.link (int3Vect s).link [] := by
  intro sent held hf hs
  exact ⟨[versionMessage], held, by simp [hp versionMessage rfl], (int3Vect_flows hf).1, hs⟩

/-! ### Steps -/

/-- The SUSPENDs and RESUMEs that a step puts into `write_buf`. -/
def signals (s : State) : HoldEvent → List Message
  | .message m _ => if OpensTag s m then spoken s resumeMessage else []
  | .rotor id _ => if Drains s id then spoken s suspendMessage else []
  | .expire id =>
    if id = .menu ∧ s.timers.callback id ≠ none then
      (if s.menu.state = .tag then spoken s suspendMessage else []) ++
        spoken (closing s) resumeMessage
    else []
  | _ => []

theorem tells_holdStep {s : State} (h : TableSound s.timers.callback) (e : HoldEvent) :
    Tells isSignal s.link (holdStep s e).link (signals s e) := by
  cases e with
  | message m fits => exact tells_receive s m
  | exchange received => exact tells_exchange s received
  | postponeTry => exact tells_postponeTry s (isSignal_other (by decide) (by decide))
  | rotor id action => exact tells_menuHandleRotor s id action
  | expire id =>
    exact tells_atExpire h id (tells_stop s) (isSignal_other (by decide) (by decide))
  | flushTick => exact tells_ite (.refl _) (.refl _)
  | heartbeatTick => exact tells_ite (tells_heartbeatVerify s) (.refl _)
  | int2 => exact tells_twi s _
  | int3 => exact tells_int3Vect s (isSignal_other (by decide) (by decide))

/-! ### The drain flag and the picture of a name -/

theorem rotor_panel (s : State) (id : Byte) :
    ((panelOf s).rotor (rotorToState id)).drain = (if Drains s id then true else s.flush.drain) ∧
      (s.menu.state = .tag → ((panelOf s).rotor (rotorToState id)).state ≠ .tag) := by
  obtain ⟨hni, hnt⟩ := rotorToState_open id
  unfold Panel.rotor
  by_cases hidle : rotorToState id = .apply ∧ s.menu.state = .idle
  · have hno : ¬ Drains s id := by
      rintro (htag | ⟨-, hn⟩)
      · rw [hidle.2] at htag
        cases htag
      · exact hn hidle.1
    rw [if_pos (show _ ∧ (panelOf s).state = .idle from hidle), if_neg hno]
    refine ⟨rfl, fun htag => ?_⟩
    rw [hidle.2] at htag
    cases htag
  rw [if_neg (show ¬ (_ ∧ (panelOf s).state = .idle) from hidle)]
  by_cases hsame : s.menu.state = rotorToState id
  · have hno : ¬ Drains s id := by
      rintro (htag | ⟨hi, -⟩)
      · exact hnt (hsame.symm.trans htag)
      · exact hni (hsame.symm.trans hi)
    rw [if_pos (show (panelOf s).state = rotorToState id from hsame), if_neg hno]
    exact ⟨rfl, fun htag => absurd (hsame.symm.trans htag) hnt⟩
  rw [if_neg (show ¬ (panelOf s).state = rotorToState id from hsame)]
  by_cases hclosed : s.menu.state = .idle
  · have hyes : Drains s id := .inr ⟨hclosed, fun h => hidle ⟨h, hclosed⟩⟩
    have hopen : (panelOf s).start.setState (rotorToState id) =
        { (panelOf s).start with state := rotorToState id } := by
      rw [Panel.setState, if_neg (show ¬ (panelOf s).start.state = _ from hni.symm),
        if_neg (show ¬ (panelOf s).start.state = .tag from MenuState.noConfusion), if_neg hnt]
    rw [if_pos (show (panelOf s).state = .idle from hclosed), if_pos hyes, hopen]
    exact ⟨rfl, fun _ => hnt⟩
  rw [if_neg (show ¬ (panelOf s).state = .idle from hclosed), Panel.setState,
    if_neg (show ¬ (panelOf s).state = rotorToState id from hsame)]
  by_cases htag : s.menu.state = .tag
  · have hyes : Drains s id := .inl htag
    rw [if_pos (show (panelOf s).state = .tag from htag), if_pos hyes]
    exact ⟨rfl, fun _ => hnt⟩
  · have hno : ¬ Drains s id := fun h => h.elim htag fun hi => hclosed hi.1
    rw [if_neg (show ¬ (panelOf s).state = .tag from htag), if_neg hnt, if_neg hno]
    exact ⟨rfl, fun h => absurd h htag⟩

/-- What the drain flag is after a step. -/
def drainAfter (s : State) : HoldEvent → Bool
  | .message m _ => if OpensTag s m then false else s.flush.drain
  | .rotor id _ => if Drains s id then true else s.flush.drain
  | .expire id =>
    if id = .menu ∧ s.timers.callback id ≠ none then false else s.flush.drain
  | _ => s.flush.drain

/-- The name of an entry asked for opens the tag, and any other message leaves
the state of the menu and the drain as they are. -/
theorem receive_opens (s : State) (m : Message) :
    (OpensTag s m ∧ (receive s m).flush.drain = false ∧ (receive s m).menu.state = .tag) ∨
      (¬ OpensTag s m ∧ (receive s m).flush.drain = s.flush.drain ∧
        (receive s m).menu.state = s.menu.state) := by
  have hpanel := panelOf_receive s m
  have hdrain : (receive s m).flush.drain = (panelOf (receive s m)).drain := rfl
  have hstate : (receive s m).menu.state = (panelOf (receive s m)).state := rfl
  rw [hdrain, hstate, hpanel]
  by_cases hled : m.id = msgIdLedArray
  · have hno : ¬ OpensTag s m := by
      intro ho
      have hid := ho.1
      rw [hled] at hid
      exact absurd hid (by decide)
    rw [if_pos hled]
    exact .inr ⟨hno, rfl, rfl⟩
  rw [if_neg hled]
  by_cases hname : m.id = msgIdQueryName ∧
      NameMatches s.menu (inByte (arrive s.decoder m) 0) (inByte (arrive s.decoder m) 1)
  · rw [if_pos hname, Panel.setState]
    by_cases htag : s.menu.state = .tag
    · rw [if_pos (show (panelOf s).state = .tag from htag)]
      exact .inr ⟨fun ho => ho.2.2 htag, rfl, rfl⟩
    · rw [if_neg (show ¬ (panelOf s).state = .tag from htag),
        if_neg (show ¬ (panelOf s).state = .tag from htag), if_pos rfl]
      exact .inl ⟨⟨hname.1, hname.2, htag⟩, rfl, rfl⟩
  · rw [if_neg hname]
    refine .inr ⟨fun ho => hname ⟨ho.1, ho.2.1⟩, ?_, ?_⟩
    · split <;> rfl
    · split <;> rfl

theorem receive_drain (s : State) (m : Message) :
    (receive s m).flush.drain = if OpensTag s m then false else s.flush.drain := by
  rcases receive_opens s m with ⟨hopens, hdrain, -⟩ | ⟨hno, hdrain, -⟩
  · rw [hdrain, if_pos hopens]
  · rw [hdrain, if_neg hno]

theorem holdStep_drain {s : State} (h : Wired s) (e : HoldEvent) :
    (holdStep s e).flush.drain = drainAfter s e := by
  have hdrain : ∀ s : State, s.flush.drain = (panelOf s).drain := fun _ => rfl
  cases e with
  | message m fits => exact receive_drain s m
  | rotor id action =>
    have hpanel := congrArg Panel.drain (panelOf_menuHandleRotor s id action)
    exact hpanel.trans (rotor_panel s id).1
  | expire id =>
    have hpanel := congrArg Panel.drain (panelOf_atExpire h.table id)
    refine hpanel.trans (?_ : _ = if id = .menu ∧ s.timers.callback id ≠ none then false
      else s.flush.drain)
    split <;> rfl
  | flushTick =>
    unfold holdStep drainAfter
    dsimp only
    split
    · unfold flushShiftDisplay
      split <;> rfl
    · rfl
  | heartbeatTick =>
    unfold holdStep drainAfter
    dsimp only
    split
    · have hpanel := congrArg Panel.drain (panelOf_heartbeatVerify h)
      refine hpanel.trans ?_
      split <;> rfl
    · rfl
  | int3 => exact congrArg Panel.drain (panelOf_int3Vect s)
  | exchange received => rfl
  | postponeTry => rfl
  | int2 => exact congrArg Panel.drain (panelOf_twi s _)

/-- Whether the picture of a name is shown after a step. -/
def TagAfter (s : State) : HoldEvent → Prop
  | .message m _ => s.menu.state = .tag ∨ OpensTag s m
  | .rotor _ _ => False
  | .expire id => s.menu.state = .tag ∧ ¬ (id = .menu ∧ s.timers.callback id ≠ none)
  | _ => s.menu.state = .tag

theorem receive_tag (s : State) (m : Message) :
    (receive s m).menu.state = .tag ↔ s.menu.state = .tag ∨ OpensTag s m := by
  rcases receive_opens s m with ⟨hopens, -, hstate⟩ | ⟨hno, -, hstate⟩
  · exact iff_of_true hstate (.inr hopens)
  · rw [hstate, or_iff_left hno]

theorem holdStep_tag {s : State} (h : Wired s) (e : HoldEvent) :
    (holdStep s e).menu.state = .tag ↔ TagAfter s e := by
  have hsame : ∀ {s' : State}, (panelOf s').state = (panelOf s).state →
      (s'.menu.state = .tag ↔ s.menu.state = .tag) := by
    intro s' he
    have hstate : s'.menu.state = s.menu.state := he
    rw [hstate]
  cases e with
  | message m fits => exact receive_tag s m
  | rotor id action =>
    obtain ⟨hni, hnt⟩ := rotorToState_open id
    have hpanel := congrArg Panel.state (panelOf_menuHandleRotor s id action)
    have hstate : (holdStep s (.rotor id action)).menu.state =
        ((panelOf s).rotor (rotorToState id)).state := hpanel
    rw [hstate]
    refine iff_of_false (fun htag => ?_) not_false
    rcases Panel.rotor_cases (panelOf s) hni hnt with he | ⟨-, -, he⟩ | ⟨backup, he⟩
    · have hleft := (rotor_panel s id).2
      rw [he] at htag hleft
      exact hleft htag htag
    · rw [he] at htag
      exact hnt htag
    · rw [he] at htag
      exact hnt htag
  | expire id =>
    have hpanel := congrArg Panel.state (panelOf_atExpire h.table id)
    have hstate : (holdStep s (.expire id)).menu.state = (panelOf (atExpire s id)).state := rfl
    rw [hstate, hpanel]
    unfold TagAfter
    by_cases hmenu : id = .menu ∧ s.timers.callback id ≠ none
    · rw [if_pos hmenu]
      exact iff_of_false nofun fun hn => hn.2 hmenu
    · rw [if_neg hmenu]
      exact ⟨fun htag => ⟨htag, hmenu⟩, And.left⟩
  | flushTick =>
    apply hsame
    unfold holdStep
    dsimp only
    split <;> rfl
  | heartbeatTick =>
    apply hsame
    unfold holdStep
    dsimp only
    split
    · rw [panelOf_heartbeatVerify h]
      split <;> rfl
    · rfl
  | int3 => exact hsame (congrArg Panel.state (panelOf_int3Vect s))
  | exchange received => exact Iff.rfl
  | postponeTry => exact Iff.rfl
  | int2 => exact hsame (congrArg Panel.state (panelOf_twi s _))

/-- The steps that put a SUSPEND into `write_buf`. -/
def Suspends (s : State) : HoldEvent → Prop
  | .rotor id _ => Drains s id ∧ s.isConnected = true ∧ isWritable s.link = true
  | .expire id => (id = .menu ∧ s.timers.callback id ≠ none) ∧ s.menu.state = .tag ∧
      s.isConnected = true ∧ isWritable s.link = true
  | _ => False

theorem mem_spoken {s : State} {m k : Message} :
    k ∈ spoken s m ↔ k = m ∧ s.isConnected = true ∧ isWritable s.link = true := by
  unfold spoken
  split
  · rename_i h
    simp [h]
  · rename_i h
    exact iff_of_false List.not_mem_nil fun hk => h hk.2

theorem signals_suspend (s : State) (e : HoldEvent) :
    (∃ m ∈ signals s e, m.id = msgIdSuspend) ↔ Suspends s e := by
  have hresume : ∀ s : State, ¬ ∃ m ∈ spoken s resumeMessage, m.id = msgIdSuspend := by
    rintro s ⟨m, hm, hid⟩
    rw [(mem_spoken.mp hm).1] at hid
    exact absurd hid (by decide)
  have hsuspend : (∃ m ∈ spoken s suspendMessage, m.id = msgIdSuspend) ↔
      s.isConnected = true ∧ isWritable s.link = true :=
    ⟨fun ⟨m, hm, _⟩ => (mem_spoken.mp hm).2, fun h => ⟨_, mem_spoken.mpr ⟨rfl, h⟩, rfl⟩⟩
  have hnone : ¬ ∃ m ∈ ([] : List Message), m.id = msgIdSuspend := by simp
  cases e with
  | message m fits =>
    have hmessage : signals s (.message m fits) =
        if OpensTag s m then spoken s resumeMessage else [] := rfl
    rw [hmessage]
    refine iff_of_false ?_ not_false
    split
    · exact hresume s
    · exact hnone
  | rotor id action =>
    have hrotor : signals s (.rotor id action) =
        if Drains s id then spoken s suspendMessage else [] := rfl
    rw [hrotor]
    unfold Suspends
    by_cases hd : Drains s id
    · rw [if_pos hd]
      simp only [hd, true_and]
      exact hsuspend
    · rw [if_neg hd]
      exact iff_of_false hnone fun h => hd h.1
  | expire id =>
    have hexpire : signals s (.expire id) = if id = .menu ∧ s.timers.callback id ≠ none then
        (if s.menu.state = .tag then spoken s suspendMessage else []) ++
          spoken (closing s) resumeMessage else [] := rfl
    rw [hexpire]
    unfold Suspends
    by_cases hmenu : id = .menu ∧ s.timers.callback id ≠ none
    · rw [if_pos hmenu]
      simp only [List.mem_append, or_and_right, exists_or, hresume, or_false]
      by_cases htag : s.menu.state = .tag
      · rw [if_pos htag, hsuspend]
        exact ⟨fun h => ⟨hmenu, htag, h⟩, fun h => h.2.2⟩
      · rw [if_neg htag]
        exact iff_of_false hnone fun h => htag h.2.1
    · rw [if_neg hmenu]
      exact iff_of_false hnone fun h => hmenu h.1
  | _ => exact iff_of_false hnone not_false

end LedServer.Avr
