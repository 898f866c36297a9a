import LedServer.AvrPlaylist

set_option autoImplicit false

/-!
# The cursor of the menu

What the knobs, the timer and the names do to the state of the menu, to
`param_id` with its range and to `secondary_param`.
-/
namespace LedServer.Avr
open AvrRing

structure Cursor where
  state : MenuState
  paramId : Byte
  paramIdMin : Byte
  paramIdMax : Byte
  secondaryParam : Byte

def cursorOf (m : Menu) : Cursor :=
  ⟨m.state, m.paramId, m.paramIdMin, m.paramIdMax, m.secondaryParam⟩

namespace Cursor

def reset (c : Cursor) : Cursor :=
  { c with state := .idle, paramId := paramTrack, secondaryParam := paramTrack }

/-- The range of the list that goes with the link. -/
def setRange (c : Cursor) (connected : Bool) : Cursor :=
  { c with
    paramIdMin := if connected then paramListStart else paramOnStart
    paramIdMax := if connected then paramListFinish else paramOnFinish }

/-- The range and the parameter `set_state` comes to. -/
def adjust (c : Cursor) (connected : Bool) (new : MenuState) : Cursor :=
  if c.state = .idle ∨ c.state = .apply then
    match new with
    | .param => { c.setRange connected with paramId := (c.setRange connected).paramIdMin }
    | .value => c.setRange connected
    | _ => c
  else if (c.state = .param ∨ c.state = .value) ∧ new = .apply then
    { c with
      secondaryParam := c.paramId
      paramIdMin := paramApplyStart
      paramIdMax := paramApplyFinish
      paramId := paramApplyStart }
  else c

def enter (c : Cursor) (connected : Bool) (new : MenuState) : Cursor :=
  { c.adjust connected new with state := new }

def selectParam (c : Cursor) (action : Byte) : Cursor :=
  if action = rotorClockwise ∧ c.paramId < c.paramIdMax then { c with paramId := c.paramId + 1 }
  else if action = rotorCounterClockwise ∧ c.paramId > c.paramIdMin then
    { c with paramId := c.paramId - 1 }
  else c

/-- The knob of the state `new`, which is the present one, is turned. -/
def turn (c : Cursor) (new : MenuState) (param action : Byte) : Cursor :=
  match new with
  | .apply => { c with paramId := if action = rotorClockwise then paramApply else paramCancel }
  | .param => c.selectParam action
  | _ => { c with paramId := param }

def rotor (c : Cursor) (connected : Bool) (new : MenuState) (param action : Byte) : Cursor :=
  if new = .apply ∧ c.state = .idle then c
  else if c.state = new then c.turn new param action
  else ((if c.state = .idle then c.reset else c).enter connected new).turn new param action

theorem selectParam_same (c : Cursor) (action : Byte) :
    (c.selectParam action).state = c.state ∧ (c.selectParam action).paramIdMin = c.paramIdMin ∧
      (c.selectParam action).paramIdMax = c.paramIdMax := by
  unfold selectParam
  split_ifs <;> exact ⟨rfl, rfl, rfl⟩

theorem turn_state (c : Cursor) (new : MenuState) (param action : Byte) :
    (c.turn new param action).state = c.state := by
  cases new with
  | param => exact (selectParam_same c action).1
  | _ => rfl

/-- A knob leads to its own state, or does nothing to a closed menu. -/
theorem rotor_state (c : Cursor) (connected : Bool) (new : MenuState) (param action : Byte) :
    (c.rotor connected new param action).state =
      if new = .apply ∧ c.state = .idle then .idle else new := by
  unfold rotor
  by_cases hclosed : new = .apply ∧ c.state = .idle
  · rw [if_pos hclosed, if_pos hclosed, hclosed.2]
  rw [if_neg hclosed, if_neg hclosed]
  by_cases hsame : c.state = new
  · rw [if_pos hsame, turn_state, hsame]
  · rw [if_neg hsame, turn_state]
    rfl

end Cursor

/-! ### What each function of `menu.c` does to the cursor -/

theorem cursorOf_selectParam (m : Menu) (action : Byte) :
    cursorOf (selectParam m action) = (cursorOf m).selectParam action := by
  unfold selectParam Cursor.selectParam
  exact apply_ite cursorOf _ _ _ |>.trans (congrArg _ (apply_ite cursorOf _ _ _))

theorem cursorOf_selectValue (m : Menu) (action : Byte) :
    cursorOf (selectValue m action) = cursorOf m := by
  unfold selectValue
  dsimp only
  split_ifs <;> rfl

theorem cursorOf_enterState (m : Menu) (connected : Bool) (new : MenuState) :
    cursorOf (enterState m connected new) = (cursorOf m).enter connected new := by
  have hstate : (cursorOf m).state = m.state := rfl
  unfold enterState Cursor.enter Cursor.adjust setParamRange
  rw [hstate]
  cases m.state <;> cases new <;> rfl

theorem setState_cursor (s : State) {new : MenuState} (h : new ≠ .tag) :
    cursorOf (setState s new).menu =
      if s.menu.state = new then cursorOf s.menu
      else (cursorOf s.menu).enter s.isConnected new := by
  by_cases hsame : s.menu.state = new
  · have hstay : setState s new = s := if_pos hsame
    rw [if_pos hsame, hstay]
  · rw [if_neg hsame, ← cursorOf_enterState]
    unfold setState
    rw [if_neg hsame, if_neg h]
    dsimp only
    split
    · rw [modeSet_menu, modeSet_menu_connected]
      dsimp only
      rw [sendMessage0_menu, sendMessage0_connected]
    · rfl

/-- The picture of a name leaves all but the state. -/
theorem setState_tag_menu (s : State) : (setState s .tag).menu = { s.menu with state := .tag } := by
  by_cases hsame : s.menu.state = .tag
  · have hstay : setState s .tag = s := if_pos hsame
    rw [hstay, ← hsame]
  · have henter : ∀ connected, enterState s.menu connected .tag = { s.menu with state := .tag } := by
      intro connected
      unfold enterState
      rw [if_neg (by simp), if_neg (by simp)]
    unfold setState
    rw [if_neg hsame, if_neg hsame, if_pos rfl]
    dsimp only
    rw [modeSet_menu, sendMessage0_menu]
    exact henter _

theorem querySource_cursor (s : State) : cursorOf (querySource s).menu = cursorOf s.menu := by
  unfold querySource
  dsimp only
  split_ifs <;> simp [cursorOf]

theorem scheduleTag_cursor (s : State) : cursorOf (scheduleTag s).menu = cursorOf s.menu := by
  unfold scheduleTag
  dsimp only
  split_ifs <;> rfl

theorem start_cursor (s : State) {rotorId : Byte} (h : rotorId ≠ rotorApply) :
    cursorOf (start s rotorId).menu = (cursorOf s.menu).reset := by
  unfold start
  rw [if_neg h]
  dsimp only
  rw [sendMessage0_menu, modeSet_menu]
  rfl

theorem turnSame_cursor {s : State} {id : Byte} (action : Byte)
    (h : s.menu.state = rotorToState id) :
    cursorOf (turnSame s id action).menu =
      (cursorOf s.menu).turn (rotorToState id) (rotorToParam s.isConnected id) action := by
  obtain ⟨hidle, htag⟩ := rotorToState_open id
  unfold turnSame
  rw [h]
  cases hnew : rotorToState id with
  | apply => rfl
  | param => exact cursorOf_selectParam s.menu action
  | value =>
    dsimp only
    rw [scheduleTag_cursor, cursorOf_selectValue]
    split
    · rw [querySource_cursor]
      rfl
    · -- the knob of the parameter that is selected already
      rename_i hsame
      rw [not_not] at hsame
      have hcursor : (cursorOf s.menu).paramId = rotorToParam s.isConnected id := hsame
      unfold Cursor.turn
      rw [← hcursor]
  | idle => exact absurd hnew hidle
  | tag => exact absurd hnew htag

theorem turnOther_cursor (s : State) (id action : Byte) :
    cursorOf (turnOther s id action).menu =
      (cursorOf s.menu).turn (rotorToState id) (rotorToParam s.isConnected id) action := by
  obtain ⟨hidle, htag⟩ := rotorToState_open id
  unfold turnOther
  cases hnew : rotorToState id with
  | apply => rfl
  | param => exact cursorOf_selectParam s.menu action
  | value =>
    dsimp only
    rw [querySource_cursor, cursorOf_selectValue]
    rfl
  | idle => exact absurd hnew hidle
  | tag => exact absurd hnew htag

theorem setState_connected_other (s : State) {new : MenuState} (h : new ≠ .tag) :
    (setState s new).isConnected = s.isConnected := by
  rw [setState_connected]
  exact if_neg fun hn => h hn.1

theorem menuHandleRotor_cursor (s : State) (id action : Byte) :
    cursorOf (menuHandleRotor s id action).menu =
      (cursorOf s.menu).rotor s.isConnected (rotorToState id) (rotorToParam s.isConnected id)
        action := by
  obtain ⟨-, htag⟩ := rotorToState_open id
  have hsched : ∀ (s : State) (delay : Byte), (schedule s delay).menu = s.menu := fun _ _ => rfl
  have hstate : (cursorOf s.menu).state = s.menu.state := rfl
  unfold menuHandleRotor Cursor.rotor
  rw [hstate]
  by_cases hclosed : rotorToState id = .apply ∧ s.menu.state = .idle
  · rw [if_pos hclosed, if_pos hclosed]
  rw [if_neg hclosed, if_neg hclosed]
  by_cases hsame : s.menu.state = rotorToState id
  · rw [if_pos hsame, if_pos hsame, hsched, turnSame_cursor action hsame]
  rw [if_neg hsame, if_neg hsame]
  dsimp only
  rw [hsched, turnOther_cursor, setState_cursor _ htag, setState_connected_other _ htag]
  by_cases hidle : s.menu.state = .idle
  · have hopen : rotorToState id ≠ .apply := fun h => hclosed ⟨h, hidle⟩
    have hstart := start_cursor s (rotorToState_apply hopen)
    have hother : ¬ (start s id).menu.state = rotorToState id := by
      rw [show (start s id).menu.state = _ from congrArg Cursor.state hstart]
      exact fun h => (rotorToState_open id).1 h.symm
    rw [if_pos hidle, if_pos hidle, if_neg hother, start_connected, hstart]
  · rw [if_neg hidle, if_neg hidle, if_neg hsame]

theorem stopAction_menu (s : State) (param : Byte) : (stopAction s param).menu = s.menu := by
  have paramSet : ∀ a b c, (sendMessage3 s a b c).menu = s.menu := by
    intro a b c
    unfold sendMessage3
    exact menu_ite id rfl rfl
  exact stopAction_cases (P := fun a => a.menu = s.menu) s rfl (fun _ => rfl) paramSet
    (sendMessage1_menu s msgIdPoweroff) (sendMessage0_menu s msgIdReboot) rfl param

/-- Closing the menu from the picture of a name goes by STATE_VALUE, with the
range as it was. -/
theorem stop_cursor (s : State) : cursorOf (stop s).menu = (cursorOf s.menu).reset := by
  have hreset : ∀ s : State, cursorOf (reset s).menu = (cursorOf s.menu).reset := fun _ => rfl
  unfold stop
  dsimp only
  rw [hreset, sendMessage0_menu, modeSet_menu]
  dsimp only
  rw [stopAction_menu]
  by_cases htag : s.menu.state = .tag
  · have hcursor : (cursorOf s.menu).state = .tag := htag
    rw [if_pos htag, setState_cursor s (by decide), htag, if_neg (by decide)]
    unfold Cursor.enter Cursor.adjust
    rw [hcursor, if_neg (by decide), if_neg (by decide)]
    rfl
  · rw [if_neg htag]

/-! ### What a step does -/

/-- The name of what is selected has come. -/
def IsNamed (s : State) (m : Message) : Prop :=
  m.id = msgIdQueryName ∧
    NameMatches s.menu (inByte (arrive s.decoder m) 0) (inByte (arrive s.decoder m) 1)

instance (s : State) (m : Message) : Decidable (IsNamed s m) := inferInstanceAs (Decidable (_ ∧ _))

theorem menuParameterValue_congr {a b : State} (h : a.menu = b.menu)
    (parameter value min max : Byte) :
    (menuParameterValue a parameter value min max).1.menu =
      (menuParameterValue b parameter value min max).1.menu := by
  have hsched : ∀ (s : State) (delay : Byte), (schedule s delay).menu = s.menu := fun _ _ => rfl
  unfold menuParameterValue
  dsimp only
  split
  · exact h
  · rw [hsched, hsched, h]

/-- The menu after a message: a name in time, a number, or nothing new. -/
theorem receive_menu (s : State) (m : Message) :
    (receive s m).menu =
      if IsNamed s m then { s.menu with state := .tag }
      else if m.id = msgIdQueryNumber then
        (menuParameterValue s (inByte (arrive s.decoder m) 0) (inByte (arrive s.decoder m) 1)
          (inByte (arrive s.decoder m) 2) (inByte (arrive s.decoder m) 3)).1.menu
      else s.menu := by
  have hdone : (receive s m).menu = (decode { s with decoder := arrive s.decoder m }).menu := rfl
  have hreply : ∀ (a : State) (status msgId : Byte), (reply a status msgId).menu = a.menu :=
    fun _ _ _ => rfl
  have hother : ∀ {id id' : Byte}, (arrive s.decoder m).msgId = id → id ≠ id' → ¬ m.id = id' := by
    rintro id id' rfl hne
    exact hne
  have hcase := decode_case { s with decoder := arrive s.decoder m }
  rw [hdone]
  generalize decode { s with decoder := arrive s.decoder m } = r at hcase ⊢
  cases hcase with
  | ledArray hid =>
    rw [if_neg fun h => hother hid (by decide) h.1, if_neg (hother hid (by decide)), hreply]
    rfl
  | queryName hid status =>
    have hname : m.id = msgIdQueryName := hid
    have hmatch : IsNamed s m ↔ NameMatches s.menu (inByte (arrive s.decoder m) 0)
        (inByte (arrive s.decoder m) 1) := ⟨And.right, fun h => ⟨hname, h⟩⟩
    rw [hreply, menuParameterName_state, if_neg (c := m.id = msgIdQueryNumber) (hother hid (by decide))]
    by_cases hin : IsNamed s m
    · rw [if_pos hin]
      refine (congrArg State.menu (if_pos ?_)).trans (setState_tag_menu _)
      exact hmatch.mp hin
    · rw [if_neg hin]
      refine (congrArg State.menu (if_neg ?_)).trans rfl
      exact fun h => hin (hmatch.mpr h)
  | queryNumber hid status =>
    rw [if_neg fun h => hother hid (by decide) h.1, if_pos (show m.id = msgIdQueryNumber from hid),
      hreply]
    have hmenu : (confirmed { s with decoder := arrive s.decoder m }).menu = s.menu := rfl
    exact menuParameterValue_congr hmenu _ _ _ _
  | idle hid =>
    rw [if_neg fun h => hother hid (by decide) h.1, if_neg (hother hid (by decide))]
    rfl
  | syncClock hid =>
    rw [if_neg fun h => hother hid (by decide) h.1, if_neg (hother hid (by decide)), hreply]
    rfl
  | handshake hid =>
    rw [if_neg fun h => hother hid (by decide) h.1, if_neg (hother hid (by decide)), modeSet_menu]
    rfl
  | unknown led name number idle clock shake =>
    have hnumber : ¬ m.id = msgIdQueryNumber := number
    rw [if_neg fun h => name h.1, if_neg hnumber, hreply]
    rfl

theorem menuParameterValue_cursor (s : State) (parameter value min max : Byte) :
    cursorOf (menuParameterValue s parameter value min max).1.menu = cursorOf s.menu := by
  unfold menuParameterValue
  dsimp only
  split <;> rfl

def cursorAfter (s : State) : HoldEvent → Cursor
  | .message m _ =>
    if IsNamed s m then { cursorOf s.menu with state := .tag } else cursorOf s.menu
  | .rotor id action =>
    (cursorOf s.menu).rotor s.isConnected (rotorToState id) (rotorToParam s.isConnected id) action
  | .expire id =>
    if id = .menu ∧ s.timers.callback id ≠ none then (cursorOf s.menu).reset else cursorOf s.menu
  | _ => cursorOf s.menu

theorem atExpire_cursor {s : State} (h : TableSound s.timers.callback) (id : AtId) :
    cursorOf (atExpire s id).menu =
      if id = .menu ∧ s.timers.callback id ≠ none then (cursorOf s.menu).reset
      else cursorOf s.menu :=
  atExpire_menu cursorOf h (stop_cursor s) id

theorem holdStep_cursor {s : State} (h : Wired s) (e : HoldEvent) :
    cursorOf (holdStep s e).menu = cursorAfter s e := by
  cases e with
  | message m fits =>
    have hmenu : (holdStep s (.message m fits)).menu = (receive s m).menu := rfl
    have hafter : cursorAfter s (.message m fits) =
        if IsNamed s m then { cursorOf s.menu with state := .tag } else cursorOf s.menu := rfl
    rw [hmenu, receive_menu, hafter]
    by_cases hin : IsNamed s m
    · rw [if_pos hin, if_pos hin]
      rfl
    · rw [if_neg hin, if_neg hin]
      split
      · exact menuParameterValue_cursor s _ _ _ _
      · rfl
  | rotor id action => exact menuHandleRotor_cursor s id action
  | expire id => exact atExpire_cursor h.table id
  | flushTick => exact menu_ite cursorOf rfl rfl
  | heartbeatTick => exact menu_ite cursorOf (congrArg cursorOf (heartbeatVerify_menu h)) rfl
  | int3 => rfl
  | exchange received => rfl
  | postponeTry => rfl
  | int2 => exact congrArg cursorOf (twi_menu s _)

end LedServer.Avr
