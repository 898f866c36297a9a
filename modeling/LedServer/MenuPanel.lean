import LedServer.AvrQuiet

set_option autoImplicit false

/-!
# The menu, the mode and the drain flag

What the knobs, the timers and the Pi's answers come to for the five variables
that `menu.c`, `mode.c` and `flush.c` have to keep in step.
-/
namespace LedServer.Avr
open AvrRing

structure Panel where
  state : MenuState
  mode : Mode
  backup : Mode
  drain : Bool
  shiftData : Buffer

namespace Panel

def setState (p : Panel) (new : MenuState) : Panel :=
  if p.state = new then p
  else if p.state = .tag then
    { p with state := new, mode := .menu, drain := true, shiftData := bufferClear p.shiftData }
  else if new = .tag then { p with state := new, mode := .radio, drain := false }
  else { p with state := new }

/-- The menu opens. -/
def start (p : Panel) : Panel :=
  { p with
    state := .idle
    mode := .menu
    backup := p.mode
    drain := true
    shiftData := bufferClear p.shiftData }

/-- The menu closes. -/
def stop (p : Panel) : Panel :=
  { state := .idle
    mode := p.backup
    backup := .menu
    drain := false
    shiftData := if p.state = .tag then bufferClear p.shiftData else p.shiftData }

def rotor (p : Panel) (new : MenuState) : Panel :=
  if new = .apply ∧ p.state = .idle then p
  else if p.state = new then p
  else (if p.state = .idle then p.start else p).setState new

end Panel

def panelOf (s : State) : Panel :=
  ⟨s.menu.state, s.currentMode, s.menu.backupMode, s.flush.drain, s.flush.shiftData⟩

/-! ### What each function of `menu.c` does to the panel -/

@[simp] theorem panelOf_modeSet (s : State) (m : Mode) :
    panelOf (modeSet s m) = { panelOf s with mode := m } := by
  simp only [panelOf, modeSet_menu, modeSet_mode, modeSet_flush]

@[simp] theorem panelOf_sendMessage0 (s : State) (msgId : Byte) :
    panelOf (sendMessage0 s msgId) = panelOf s := by
  unfold sendMessage0
  split_ifs <;> rfl

@[simp] theorem panelOf_sendMessage1 (s : State) (msgId a : Byte) :
    panelOf (sendMessage1 s msgId a) = panelOf s := by
  unfold sendMessage1
  split_ifs <;> rfl

@[simp] theorem panelOf_sendMessage2 (s : State) (msgId a b : Byte) :
    panelOf (sendMessage2 s msgId a b) = panelOf s := by
  unfold sendMessage2
  split_ifs <;> rfl

@[simp] theorem panelOf_sendMessage3 (s : State) (a b c : Byte) :
    panelOf (sendMessage3 s a b c) = panelOf s := by
  unfold sendMessage3
  split_ifs <;> rfl

theorem panelOf_ite {p : Prop} [Decidable p] {a b : State} {q : Panel} (ha : panelOf a = q)
    (hb : panelOf b = q) : panelOf (if p then a else b) = q := by
  split
  · exact ha
  · exact hb

theorem panelOf_ite_fst {α : Type} {p : Prop} [Decidable p] {a b : State × α} {q : Panel}
    (ha : panelOf a.1 = q) (hb : panelOf b.1 = q) : panelOf (if p then a else b).1 = q := by
  split
  · exact ha
  · exact hb

theorem enterState_state (m : Menu) (connected : Bool) (new : MenuState) :
    (enterState m connected new).state = new ∧
      (enterState m connected new).backupMode = m.backupMode := by
  unfold enterState setParamRange
  refine ⟨rfl, ?_⟩
  dsimp only
  split_ifs <;> cases new <;> rfl

theorem panelOf_enterState (s : State) (new : MenuState) :
    panelOf { s with menu := enterState s.menu s.isConnected new } =
      { panelOf s with state := new } := by
  obtain ⟨hs, hb⟩ := enterState_state s.menu s.isConnected new
  simp only [panelOf, hs, hb]

theorem panelOf_setState (s : State) (new : MenuState) :
    panelOf (setState s new) = (panelOf s).setState new := by
  unfold setState Panel.setState
  by_cases hsame : s.menu.state = new
  · rw [if_pos hsame, if_pos (show (panelOf s).state = new from hsame)]
  · rw [if_neg hsame, if_neg (show ¬ (panelOf s).state = new from hsame)]
    dsimp only
    rw [panelOf_enterState]
    by_cases htag : s.menu.state = .tag
    · rw [if_pos htag, if_pos (show (panelOf s).state = .tag from htag), panelOf_modeSet]
      have hsend : panelOf { sendMessage0 s msgIdSuspend with
          flush := flushShiftDrainStart (sendMessage0 s msgIdSuspend).flush } =
          { panelOf (sendMessage0 s msgIdSuspend) with
            drain := true
            shiftData := bufferClear (panelOf (sendMessage0 s msgIdSuspend)).shiftData } := rfl
      rw [hsend, panelOf_sendMessage0]
    · rw [if_neg htag, if_neg (show ¬ (panelOf s).state = .tag from htag)]
      by_cases hnew : new = .tag
      · rw [if_pos hnew, if_pos hnew, panelOf_modeSet, panelOf_sendMessage0]
        rfl
      · rw [if_neg hnew, if_neg hnew]

theorem panelOf_start (s : State) {rotorId : Byte} (h : rotorId ≠ rotorApply) :
    panelOf (start s rotorId) = (panelOf s).start := by
  unfold start
  rw [if_neg h]
  dsimp only
  have hdrain : ∀ s : State, panelOf { s with flush := flushShiftDrainStart s.flush } =
      { panelOf s with drain := true, shiftData := bufferClear (panelOf s).shiftData } :=
    fun _ => rfl
  rw [hdrain, panelOf_sendMessage0, panelOf_modeSet]
  rfl

theorem setBrightness_panelOf (s : State) (bNess : Byte) :
    panelOf (setBrightness s bNess) = panelOf s := by
  unfold setBrightness flushBrightnessSet
  split_ifs <;> rfl

theorem panelOf_stopAction (s : State) (param : Byte) :
    panelOf (stopAction s param) = panelOf s :=
  stopAction_cases (P := fun a => panelOf a = panelOf s) s rfl (setBrightness_panelOf s)
    (panelOf_sendMessage3 s) (panelOf_sendMessage1 s msgIdPoweroff)
    (panelOf_sendMessage0 s msgIdReboot) rfl param

theorem panelOf_stop (s : State) : panelOf (stop s) = (panelOf s).stop := by
  have hclose : ∀ s : State, panelOf (reset (sendMessage0 (modeSet
      { s with flush := flushShiftDrainStop s.flush } s.menu.backupMode) msgIdResume)) =
      { panelOf s with
        state := .idle, mode := (panelOf s).backup, backup := .menu, drain := false } := by
    intro s
    have hreset : ∀ s : State, panelOf (reset s) =
        { panelOf s with state := .idle, backup := .menu } := fun _ => rfl
    rw [hreset, panelOf_sendMessage0, panelOf_modeSet]
    rfl
  unfold stop Panel.stop
  dsimp only
  rw [hclose, panelOf_stopAction]
  by_cases htag : s.menu.state = .tag
  · rw [if_pos htag, if_pos (show (panelOf s).state = .tag from htag), panelOf_setState,
      Panel.setState, if_neg (by rw [show (panelOf s).state = .tag from htag]; simp),
      if_pos (show (panelOf s).state = .tag from htag)]
  · rw [if_neg htag, if_neg (show ¬ (panelOf s).state = .tag from htag)]

theorem panelOf_tagRequest (s : State) : panelOf (tagRequest s) = panelOf s := by
  unfold tagRequest
  exact panelOf_ite rfl (panelOf_ite rfl (panelOf_ite rfl (panelOf_sendMessage2 s _ _ _)))

theorem panelOf_querySource (s : State) : panelOf (querySource s) = panelOf s := by
  unfold querySource
  refine panelOf_ite rfl (panelOf_ite rfl ?_)
  exact panelOf_sendMessage1 s msgIdQueryNumber _

theorem panelOf_scheduleTag (s : State) : panelOf (scheduleTag s) = panelOf s := by
  unfold scheduleTag
  exact panelOf_ite rfl (panelOf_ite rfl rfl)

theorem selectParam_same (m : Menu) (action : Byte) :
    (selectParam m action).state = m.state ∧ (selectParam m action).backupMode = m.backupMode := by
  unfold selectParam
  split_ifs <;> exact ⟨rfl, rfl⟩

theorem selectValue_same (m : Menu) (action : Byte) :
    (selectValue m action).state = m.state ∧ (selectValue m action).backupMode = m.backupMode := by
  unfold selectValue
  dsimp only
  split_ifs <;> exact ⟨rfl, rfl⟩

/-- A menu with another cursor or other values is the same panel. -/
theorem panelOf_menu (s : State) {m : Menu} (h : m.state = s.menu.state)
    (hb : m.backupMode = s.menu.backupMode) : panelOf { s with menu := m } = panelOf s := by
  simp only [panelOf, h, hb]

theorem panelOf_twi (s : State) (t : AvrTwi.Twi) : panelOf { s with twi := t } = panelOf s := rfl

theorem panelOf_turnSame (s : State) (id action : Byte) :
    panelOf (turnSame s id action) = panelOf s := by
  have hselect : ∀ s : State, panelOf { s with menu := selectValue s.menu action } = panelOf s :=
    fun s => panelOf_menu s (selectValue_same _ _).1 (selectValue_same _ _).2
  unfold turnSame
  cases s.menu.state with
  | apply => exact panelOf_menu s rfl rfl
  | param => exact panelOf_menu s (selectParam_same _ _).1 (selectParam_same _ _).2
  | value =>
    dsimp only
    rw [panelOf_scheduleTag, hselect]
    refine panelOf_ite ?_ rfl
    rw [panelOf_querySource]
    exact panelOf_menu s rfl rfl
  | idle => rfl
  | tag => rfl

theorem panelOf_turnOther (s : State) (id action : Byte) :
    panelOf (turnOther s id action) = panelOf s := by
  have hother : ∀ m : Menu, m.state = s.menu.state → m.backupMode = s.menu.backupMode →
      panelOf (querySource { s with menu := selectValue m action }) = panelOf s := by
    intro m hs hb
    rw [panelOf_querySource]
    exact panelOf_menu s ((selectValue_same _ _).1.trans hs) ((selectValue_same _ _).2.trans hb)
  unfold turnOther
  cases rotorToState id with
  | apply => exact panelOf_menu s rfl rfl
  | param => exact panelOf_menu s (selectParam_same _ _).1 (selectParam_same _ _).2
  | _ => exact hother _ rfl rfl

theorem panelOf_schedule (s : State) (delay : Byte) : panelOf (schedule s delay) = panelOf s := rfl

theorem rotorToState_apply {id : Byte} (h : rotorToState id ≠ .apply) : id ≠ rotorApply := by
  rintro rfl
  exact h (by decide)

theorem rotorToState_open (id : Byte) : rotorToState id ≠ .idle ∧ rotorToState id ≠ .tag := by
  unfold rotorToState
  split_ifs <;> decide

theorem panelOf_menuHandleRotor (s : State) (id action : Byte) :
    panelOf (menuHandleRotor s id action) = (panelOf s).rotor (rotorToState id) := by
  unfold menuHandleRotor Panel.rotor
  dsimp only
  by_cases hidle : rotorToState id = .apply ∧ s.menu.state = .idle
  · rw [if_pos hidle, if_pos (show _ ∧ (panelOf s).state = .idle from hidle)]
  · rw [if_neg hidle, if_neg (show ¬ (_ ∧ (panelOf s).state = .idle) from hidle)]
    by_cases hsame : s.menu.state = rotorToState id
    · rw [if_pos hsame, if_pos (show (panelOf s).state = rotorToState id from hsame),
        panelOf_schedule, panelOf_turnSame]
    · rw [if_neg hsame, if_neg (show ¬ (panelOf s).state = rotorToState id from hsame),
        panelOf_schedule, panelOf_turnOther, panelOf_setState]
      by_cases hclosed : s.menu.state = .idle
      · have hid : id ≠ rotorApply := rotorToState_apply fun h => hidle ⟨h, hclosed⟩
        rw [if_pos hclosed, if_pos (show (panelOf s).state = .idle from hclosed),
          panelOf_start s hid]
      · rw [if_neg hclosed, if_neg (show ¬ (panelOf s).state = .idle from hclosed)]

theorem panelOf_menuParameterValue (s : State) (parameter value min max : Byte) :
    panelOf (menuParameterValue s parameter value min max).1 = panelOf s := by
  unfold menuParameterValue
  exact panelOf_ite_fst rfl (panelOf_menu s rfl rfl)

/-- A name that does not come too late. -/
def NameMatches (m : Menu) (parameter id : Byte) : Prop :=
  (parameter = parameterPlaylist ∨ parameter = parameterTrack) ∧
    (if parameter = parameterPlaylist then paramPlaylist else paramTrack) = m.paramId ∧
    (if parameter = parameterPlaylist then paramPlaylist else paramTrack) = m.tagParam ∧
    id = m.tagValue

instance (m : Menu) (parameter id : Byte) : Decidable (NameMatches m parameter id) :=
  inferInstanceAs (Decidable (_ ∧ _))

theorem menuParameterName_state (s : State) (parameter id : Byte) :
    (menuParameterName s parameter id).1 =
      if NameMatches s.menu parameter id then setState (schedule s delayRead) .tag else s := by
  unfold menuParameterName
  dsimp only
  by_cases hparam : parameter ≠ parameterPlaylist ∧ parameter ≠ parameterTrack
  · have hno : ¬ NameMatches s.menu parameter id := fun hm =>
      hm.1.elim hparam.1 hparam.2
    rw [if_pos hparam, if_neg hno]
  · rw [if_neg hparam]
    by_cases hlate :
        (if parameter = parameterPlaylist then paramPlaylist else paramTrack) ≠ s.menu.paramId ∨
          (if parameter = parameterPlaylist then paramPlaylist else paramTrack) ≠
            s.menu.tagParam ∨ id ≠ s.menu.tagValue
    · have hno : ¬ NameMatches s.menu parameter id := by
        rintro ⟨-, h₁, h₂, h₃⟩
        rcases hlate with h | h | h
        · exact h h₁
        · exact h h₂
        · exact h h₃
      rw [if_pos hlate, if_neg hno]
    · have hyes : NameMatches s.menu parameter id := by
        rw [not_or, not_or, not_not, not_not, not_not] at hlate
        rw [not_and_or, not_not, not_not] at hparam
        exact ⟨hparam, hlate⟩
      rw [if_neg hlate, if_pos hyes]

theorem panelOf_menuParameterName (s : State) (parameter id : Byte) :
    panelOf (menuParameterName s parameter id).1 =
      if NameMatches s.menu parameter id then (panelOf s).setState .tag else panelOf s := by
  rw [menuParameterName_state]
  split
  · rw [panelOf_setState, panelOf_schedule]
  · rfl

/-- A heartbeat found missing once too often. -/
def Loses (h : Heartbeat) : Prop :=
  h.currentMisses + 1 ≥ h.maxMisses ∧ h.report = some .switchToWatch

instance (h : Heartbeat) : Decidable (Loses h) := inferInstanceAs (Decidable (_ ∧ _))

theorem panelOf_heartbeatVerify {s : State} (h : Wired s) :
    panelOf (heartbeatVerify s) =
      if Loses s.heartbeat then { panelOf s with mode := .watch } else panelOf s := by
  unfold heartbeatVerify
  dsimp only
  by_cases hmiss : s.heartbeat.currentMisses + 1 ≥ s.heartbeat.maxMisses
  · rw [if_pos hmiss]
    rcases h.report with hr | hr
    · have hno : ¬ Loses s.heartbeat := by
        rintro ⟨-, hl⟩
        rw [hr] at hl
        cases hl
      rw [if_neg hno, hr]
      rfl
    · have hyes : Loses s.heartbeat := ⟨hmiss, hr⟩
      rw [if_pos hyes, hr]
      exact panelOf_modeSet _ .watch
  · have hno : ¬ Loses s.heartbeat := fun hl => hmiss hl.1
    rw [if_neg hmiss, if_neg hno]
    refine panelOf_ite ?_ rfl
    rcases h.provoke with hp | hp <;> rw [hp] <;> rfl

/-- An entry of the table closes the menu if it is the menu's and taken. -/
theorem panelOf_atExpire {s : State} (h : TableSound s.timers.callback) (id : AtId) :
    panelOf (atExpire s id) =
      if id = .menu ∧ s.timers.callback id ≠ none then (panelOf s).stop else panelOf s := by
  unfold atExpire
  cases hcb : s.timers.callback id with
  | none => rw [if_neg (by simp)]
  | some cb =>
    have hcb' : cb = id.owner := h id cb hcb
    subst hcb'
    have hrun : panelOf (runAtCallback s id.owner) =
        if id = .menu ∧ some id.owner ≠ none then (panelOf s).stop else panelOf s := by
      cases id with
      | boot => rfl
      | menu => exact panelOf_stop s
      | menuTag => exact panelOf_tagRequest s
      | spi => rfl
    exact panelOf_ite hrun hrun

end LedServer.Avr
