import LedServer.MenuCursor

set_option autoImplicit false

/-!
# What the cursor of the menu points at

`set_state` adjusts the parameter and its range on entering the list from a
closed menu or from APPLY, and keeps the selection on entering APPLY from the
list or from a value. It does neither where a name is shown, and nothing on the
way from a value to the list.
-/
namespace LedServer.Avr
open Machine

namespace Cursor

/-- The two lists of parameters that are switched on and off. -/
def Listed (c : Cursor) : Prop :=
  (c.paramIdMin = paramListStart ∧ c.paramIdMax = paramListFinish) ∨
    (c.paramIdMin = paramOnStart ∧ c.paramIdMax = paramOnFinish)

/-- The parameters that have values. -/
def Valued (c : Cursor) : Prop :=
  c.paramId = paramTrack ∨ c.paramId = paramVolume ∨ c.paramId = paramPlaylist ∨
    c.paramId = paramBrightness

/-- Where the cursor may be in each state. -/
structure Placed (c : Cursor) : Prop where
  param : c.state = .param →
    c.paramIdMin ≤ c.paramId ∧ c.paramId ≤ c.paramIdMax ∧ c.Listed
  value : c.state = .value → c.Valued
  apply : c.state = .apply → c.paramId = paramCancel ∨ c.paramId = paramApply

/-- A name is shown over one of the values. -/
def Shows (c : Cursor) : Prop := c.state = .tag → c.Valued

/-- The step over the end of a list by which a value comes to be in it. -/
def Adjoins (c : Cursor) (action : Byte) : Prop :=
  (c.paramIdMin = paramListStart ∧ c.paramIdMax = paramListFinish ∧
      ((c.paramId = paramPlaylist ∧ action = rotorClockwise) ∨
        (c.paramId = paramBrightness ∧ action = rotorCounterClockwise))) ∨
    (c.paramIdMin = paramOnStart ∧ c.paramIdMax = paramOnFinish ∧
      c.paramId = paramBrightness ∧ action = rotorClockwise)

instance (c : Cursor) (action : Byte) : Decidable (c.Adjoins action) :=
  inferInstanceAs (Decidable (_ ∨ _))

variable {c : Cursor}

/-- A step in the list does not leave it. -/
theorem selectParam_within (c : Cursor) (action : Byte)
    (h : c.paramIdMin ≤ c.paramId ∧ c.paramId ≤ c.paramIdMax) :
    c.paramIdMin ≤ (c.selectParam action).paramId ∧
      (c.selectParam action).paramId ≤ c.paramIdMax := by
  unfold selectParam
  split_ifs with hup hdown
  · obtain ⟨-, hup⟩ := hup
    dsimp only
    bv_omega
  · obtain ⟨-, hdown⟩ := hdown
    dsimp only
    bv_omega
  · exact h

theorem placed_selectParam (hstate : c.state = .param) (hlist : c.Listed) (action : Byte)
    (h : c.paramIdMin ≤ c.paramId ∧ c.paramId ≤ c.paramIdMax) :
    (c.selectParam action).Placed := by
  obtain ⟨hs, hmin, hmax⟩ := selectParam_same c action
  obtain ⟨hlow, hhigh⟩ := selectParam_within c action h
  have hparam : (c.selectParam action).state = .param := hs.trans hstate
  refine ⟨fun _ => ?_, fun hv => ?_, fun ha => ?_⟩
  · rw [hmin, hmax]
    refine ⟨hlow, hhigh, ?_⟩
    unfold Listed
    rw [hmin, hmax]
    exact hlist
  · rw [hparam] at hv
    cases hv
  · rw [hparam] at ha
    cases ha

/-- `select_param` on the parameter alone. -/
def stepParam (id min max action : Byte) : Byte :=
  if action = rotorClockwise ∧ id < max then id + 1
  else if action = rotorCounterClockwise ∧ id > min then id - 1
  else id

theorem selectParam_paramId (c : Cursor) (action : Byte) :
    (c.selectParam action).paramId = stepParam c.paramId c.paramIdMin c.paramIdMax action := by
  unfold selectParam stepParam
  split_ifs <;> rfl

theorem stepParam_other {action : Byte} (hup : action ≠ rotorClockwise)
    (hdown : action ≠ rotorCounterClockwise) (id min max : Byte) :
    stepParam id min max action = id := by
  unfold stepParam
  rw [if_neg fun h => hup h.1, if_neg fun h => hdown h.1]

/-- From a value into the long list: up from the last of them, or down from the
brightness behind it. -/
theorem list_step_iff (hvalue : c.Valued) (action : Byte) :
    (paramListStart ≤ stepParam c.paramId paramListStart paramListFinish action ∧
        stepParam c.paramId paramListStart paramListFinish action ≤ paramListFinish) ↔
      (c.paramId = paramPlaylist ∧ action = rotorClockwise) ∨
        (c.paramId = paramBrightness ∧ action = rotorCounterClockwise) := by
  by_cases hup : action = rotorClockwise
  · rcases hvalue with h | h | h | h <;> rw [h, hup] <;> decide
  by_cases hdown : action = rotorCounterClockwise
  · rcases hvalue with h | h | h | h <;> rw [h, hdown] <;> decide
  · rw [stepParam_other hup hdown]
    simp only [hup, hdown, and_false, or_false, iff_false]
    rcases hvalue with h | h | h | h <;> rw [h] <;> decide

/-- Into the list of one: up from the brightness. -/
theorem on_step_iff (hvalue : c.Valued) (action : Byte) :
    (paramOnStart ≤ stepParam c.paramId paramOnStart paramOnFinish action ∧
        stepParam c.paramId paramOnStart paramOnFinish action ≤ paramOnFinish) ↔
      c.paramId = paramBrightness ∧ action = rotorClockwise := by
  by_cases hup : action = rotorClockwise
  · rcases hvalue with h | h | h | h <;> rw [h, hup] <;> decide
  by_cases hdown : action = rotorCounterClockwise
  · rcases hvalue with h | h | h | h <;> rw [h, hdown] <;> decide
  · rw [stepParam_other hup hdown]
    simp only [hup, and_false, iff_false]
    rcases hvalue with h | h | h | h <;> rw [h] <;> decide

/-- The knob of the list over a value, whose range is left as it is. -/
theorem placed_step_iff (hstate : c.state = .param) (hvalue : c.Valued) (action : Byte) :
    (c.selectParam action).Placed ↔ c.Adjoins action := by
  obtain ⟨hs, hmin, hmax⟩ := selectParam_same c action
  have hparam : (c.selectParam action).state = .param := hs.trans hstate
  have hplaced : (c.selectParam action).Placed ↔
      (c.paramIdMin ≤ stepParam c.paramId c.paramIdMin c.paramIdMax action ∧
        stepParam c.paramId c.paramIdMin c.paramIdMax action ≤ c.paramIdMax) ∧ c.Listed := by
    rw [← selectParam_paramId]
    constructor
    · intro h
      obtain ⟨hlow, hhigh, hlist⟩ := h.param hparam
      unfold Listed at hlist
      rw [hmin, hmax] at hlist
      exact ⟨⟨hmin ▸ hlow, hmax ▸ hhigh⟩, hlist⟩
    · rintro ⟨⟨hlow, hhigh⟩, hlist⟩
      refine ⟨fun _ => ⟨hmin.symm ▸ hlow, hmax.symm ▸ hhigh, ?_⟩, fun hv => ?_, fun ha => ?_⟩
      · unfold Listed
        rw [hmin, hmax]
        exact hlist
      · rw [hparam] at hv
        cases hv
      · rw [hparam] at ha
        cases ha
  rw [hplaced]
  by_cases hlist : c.paramIdMin = paramListStart ∧ c.paramIdMax = paramListFinish
  · obtain ⟨hl, hf⟩ := hlist
    have hone : ¬ (paramListStart = paramOnStart) := by decide
    unfold Listed Adjoins
    rw [hl, hf, list_step_iff hvalue]
    simp only [hone, true_and, false_and, or_false, and_true]
  by_cases hon : c.paramIdMin = paramOnStart ∧ c.paramIdMax = paramOnFinish
  · obtain ⟨hl, hf⟩ := hon
    have hone : ¬ (paramOnStart = paramListStart) := by decide
    unfold Listed Adjoins
    rw [hl, hf, on_step_iff hvalue]
    simp only [hone, true_and, false_and, false_or, and_true]
  · refine iff_of_false (fun h => h.2.elim hlist hon) ?_
    rintro (⟨hl, hf, -⟩ | ⟨hl, hf, -⟩)
    · exact hlist ⟨hl, hf⟩
    · exact hon ⟨hl, hf⟩

/-! ### The knobs -/

/-- The knob of the list is not turned over a value, or leads into the list. -/
def Leads (c : Cursor) (new : MenuState) (action : Byte) : Prop :=
  new = .param → c.state = .value ∨ c.state = .tag → c.Adjoins action

instance (c : Cursor) (new : MenuState) (action : Byte) : Decidable (c.Leads new action) :=
  inferInstanceAs (Decidable (_ → _ → _))

/-- The list, entered with the range that goes with the link. -/
theorem placed_list (c : Cursor) (connected : Bool) (action : Byte) :
    (({ c.setRange connected with
        paramId := (c.setRange connected).paramIdMin, state := .param } : Cursor).selectParam
      action).Placed := by
  refine placed_selectParam rfl ?_ action ⟨BitVec.le_refl _, ?_⟩
  · cases connected
    · exact .inr ⟨rfl, rfl⟩
    · exact .inl ⟨rfl, rfl⟩
  · cases connected
    · exact show paramOnStart ≤ paramOnFinish by decide
    · exact show paramListStart ≤ paramListFinish by decide

/-- A menu that is closed, or shows a name. -/
theorem placed_free (h : c.state = .idle ∨ c.state = .tag) : c.Placed := by
  refine ⟨fun hp => ?_, fun hv => ?_, fun ha => ?_⟩
  · rw [hp] at h
    exact absurd h (by decide)
  · rw [hv] at h
    exact absurd h (by decide)
  · rw [ha] at h
    exact absurd h (by decide)

theorem placed_apply (hstate : c.state = .apply) (param action : Byte) :
    (c.turn .apply param action).Placed := by
  have hturn : (c.turn .apply param action).state = .apply := hstate
  refine ⟨fun hp => ?_, fun hv => ?_, fun _ => ?_⟩
  · rw [hturn] at hp
    cases hp
  · rw [hturn] at hv
    cases hv
  · unfold turn
    dsimp only
    split
    · exact .inr rfl
    · exact .inl rfl

theorem placed_value (hstate : c.state = .value) (hvalue : c.Valued) : c.Placed := by
  refine ⟨fun hp => ?_, fun _ => hvalue, fun ha => ?_⟩
  · rw [hstate] at hp
    cases hp
  · rw [hstate] at ha
    cases ha

/-- The knob of the present state. -/
theorem turn_placed (h : c.Placed) {new : MenuState} (hstate : c.state = new) {param : Byte}
    (action : Byte) (hi : new ≠ .idle) (ht : new ≠ .tag)
    (hparam : new = .value → ({ c with paramId := param } : Cursor).Valued) :
    (c.turn new param action).Placed := by
  cases new with
  | apply => exact placed_apply hstate param action
  | param =>
    obtain ⟨hlow, hhigh, hlist⟩ := h.param hstate
    exact placed_selectParam hstate hlist action ⟨hlow, hhigh⟩
  | value => exact placed_value hstate (hparam rfl)
  | idle => exact absurd rfl hi
  | tag => exact absurd rfl ht

/-- The knob of the list in another state. -/
theorem enter_param_placed_iff (h : c.Placed) (hshows : c.Shows) (connected : Bool) (action : Byte)
    (hother : c.state ≠ .param) :
    ((c.enter connected .param).selectParam action).Placed ↔ c.Leads .param action := by
  have hkept : c.state = .value ∨ c.state = .tag → c.enter connected .param =
      { c with state := .param } := by
    rintro (hs | hs) <;> unfold enter adjust <;> rw [hs] <;> rfl
  have hset : c.state = .idle ∨ c.state = .apply → c.enter connected .param =
      { c.setRange connected with
        paramId := (c.setRange connected).paramIdMin, state := .param } := by
    intro hs
    unfold enter adjust
    rw [if_pos hs]
  by_cases hover : c.state = .value ∨ c.state = .tag
  · have hvalue : c.Valued := hover.elim h.value hshows
    rw [hkept hover]
    refine (placed_step_iff (c := { c with state := .param }) rfl hvalue action).trans ?_
    exact ⟨fun ha _ _ => ha, fun ha => ha rfl hover⟩
  · have hs : c.state = .idle ∨ c.state = .apply := by
      cases hc : c.state with
      | apply => exact .inr rfl
      | idle => exact .inl rfl
      | param => exact absurd hc hother
      | tag => exact absurd (.inr hc) hover
      | value => exact absurd (.inl hc) hover
    rw [hset hs]
    exact iff_of_true (placed_list c connected action) fun _ ha => absurd ha hover

/-- A knob turned where the cursor may be leaves it so exactly when it is not
the one of the list over a value that is none of the list's. -/
theorem rotor_placed_iff (h : c.Placed) (hshows : c.Shows) (connected : Bool) {new : MenuState}
    (hi : new ≠ .idle) (ht : new ≠ .tag) {param : Byte} (action : Byte)
    (hparam : new = .value → ({ c with paramId := param } : Cursor).Valued) :
    (c.rotor connected new param action).Placed ↔ c.Leads new action := by
  have hleads : new ≠ .param → c.Leads new action := fun hn hp => absurd hp hn
  have hreset : c.reset.Placed := placed_free (.inl rfl)
  unfold rotor
  by_cases hclosed : new = .apply ∧ c.state = .idle
  · rw [if_pos hclosed]
    exact iff_of_true h (hleads (by rw [hclosed.1]; decide))
  rw [if_neg hclosed]
  by_cases hsame : c.state = new
  · rw [if_pos hsame]
    refine iff_of_true (turn_placed h hsame action hi ht hparam) fun hp hover => ?_
    rw [hsame, hp] at hover
    exact absurd hover (by decide)
  rw [if_neg hsame]
  cases new with
  | apply =>
    exact iff_of_true (placed_apply (c := enter _ connected .apply) rfl param action)
      (hleads (by decide))
  | value =>
    refine iff_of_true (placed_value ?_ (hparam rfl)) (hleads (by decide))
    rfl
  | param =>
    by_cases hidle : c.state = .idle
    · rw [if_pos hidle]
      have hclosed : c.reset.state ≠ .param := fun hs => by cases hs
      have hstep := enter_param_placed_iff hreset (fun hs => by cases hs) connected action hclosed
      refine hstep.trans (iff_of_true (fun _ hover => ?_) fun _ hover => ?_)
      · exact absurd hover (show ¬ (MenuState.idle = .value ∨ MenuState.idle = .tag) by decide)
      · rw [hidle] at hover
        exact absurd hover (by decide)
    · rw [if_neg hidle]
      exact enter_param_placed_iff h hshows connected action hsame
  | idle => exact absurd rfl hi
  | tag => exact absurd rfl ht

end Cursor

/-! ### Runs of the menu -/

/-- One of the five knobs. -/
def Knob : HoldEvent → Prop
  | .rotor id _ => id ≤ rotorApply
  | _ => True

instance : DecidablePred Knob
  | .rotor .. => inferInstanceAs (Decidable (_ ≤ _))
  | .message .. | .exchange _ | .postponeTry | .expire _ | .flushTick | .heartbeatTick | .int2
  | .int3 => .isTrue trivial

theorem knob_valued {id : Byte} (h : id ≤ rotorApply) (connected : Bool) (c : Cursor)
    (hv : rotorToState id = .value) :
    ({ c with paramId := rotorToParam connected id } : Cursor).Valued := by
  have hid : id = 0 ∨ id = 1 ∨ id = 2 ∨ id = 3 ∨ id = 4 := by
    have hle : id.toNat ≤ 4 := h
    bv_omega
  unfold Cursor.Valued
  dsimp only
  rcases hid with rfl | rfl | rfl | rfl | rfl <;> cases connected <;> revert hv <;> decide

def MenuPlaced (s : State) : Prop := (cursorOf s.menu).Placed

/-- The knob of the list is not turned over a value or a name, or leads from it
into the list. -/
def LeadsInto (s : State) : HoldEvent → Prop
  | .rotor id action => (cursorOf s.menu).Leads (rotorToState id) action
  | _ => True

instance (s : State) : (e : HoldEvent) → Decidable (LeadsInto s e)
  | .rotor id action => inferInstanceAs (Decidable ((cursorOf s.menu).Leads (rotorToState id) action))
  | .message .. | .exchange _ | .postponeTry | .expire _ | .flushTick | .heartbeatTick | .int2
  | .int3 => .isTrue trivial

structure PlaceSound (s : State) : Prop where
  hold : HoldSound s
  shows : (cursorOf s.menu).Shows

theorem shows_step {s : State} (h : PlaceSound s) (e : HoldEvent) :
    (cursorOf (holdStep s e).menu).Shows := by
  rw [holdStep_cursor h.hold.wired]
  cases e with
  | message m fits =>
    unfold cursorAfter
    dsimp only
    split
    · rename_i hnamed
      obtain ⟨-, -, hparam, -⟩ := hnamed
      intro _
      unfold Cursor.Valued
      have hid : (cursorOf s.menu).paramId = s.menu.paramId := rfl
      rw [hid, ← hparam]
      split <;> decide
    · exact h.shows
  | rotor id action =>
    intro htag
    rw [show cursorAfter s (.rotor id action) = (cursorOf s.menu).rotor s.isConnected
      (rotorToState id) (rotorToParam s.isConnected id) action from rfl, Cursor.rotor_state] at htag
    split at htag
    · cases htag
    · exact absurd htag (rotorToState_open id).2
  | expire id =>
    unfold cursorAfter
    dsimp only
    split
    · exact fun htag => by cases htag
    · exact h.shows
  | _ => exact h.shows

theorem placeSound_step {s : State} (h : PlaceSound s) (e : HoldEvent) :
    PlaceSound (holdStep s e) := ⟨hold_sound_step h.hold e, shows_step h e⟩

theorem placed_step {s : State} (hi : PlaceSound s) (h : MenuPlaced s) {e : HoldEvent}
    (hknob : Knob e) : MenuPlaced (holdStep s e) ↔ LeadsInto s e := by
  unfold MenuPlaced
  rw [holdStep_cursor hi.hold.wired]
  cases e with
  | message m fits =>
    refine iff_of_true ?_ trivial
    unfold cursorAfter
    dsimp only
    split
    · exact Cursor.placed_free (.inr rfl)
    · exact h
  | rotor id action =>
    obtain ⟨hni, hnt⟩ := rotorToState_open id
    exact Cursor.rotor_placed_iff h hi.shows s.isConnected hni hnt action
      (knob_valued hknob s.isConnected _)
  | expire id =>
    refine iff_of_true ?_ trivial
    unfold cursorAfter
    dsimp only
    split
    · exact Cursor.placed_free (.inl rfl)
    · exact h
  | _ => exact iff_of_true h trivial

theorem init_cursor : cursorOf init.menu = cursorOf powerUp.menu :=
  congrArg cursorOf (modeSet_menu powerUp .watch)

theorem init_placeSound : PlaceSound init := by
  refine ⟨init_holdSound, ?_⟩
  rw [init_cursor]
  exact fun htag => by cases htag

theorem init_placed : MenuPlaced init := by
  unfold MenuPlaced
  rw [init_cursor]
  exact Cursor.placed_free (.inl rfl)

/-- In every run on the five knobs, the cursor is where its state says it is
throughout, exactly when the knob of the list is not turned over a value or a
name that is not next to the list. -/
theorem menu_placed_iff (es : List HoldEvent) (hknobs : ∀ e ∈ es, Knob e) :
    Throughout holdStep MenuPlaced init es ↔ Along holdStep LeadsInto init es :=
  throughout_iff_along_of_mem (fun _ e hi _ _ _ => placeSound_step hi e)
    (fun _ _ hi hp hk => placed_step hi hp hk) hknobs init_placeSound init_placed

/-- The volume, then the list. -/
def volumeThenList : List HoldEvent :=
  [.message ⟨0, msgIdHandshake, []⟩ (Nat.zero_le _), .rotor rotorVolume rotorClockwise,
    .rotor rotorParam rotorClockwise]

/-- The playlist, from which one step up leads into the list. -/
theorem menu_placed_of_playlist :
    Throughout holdStep MenuPlaced init
      [.message ⟨0, msgIdHandshake, []⟩ (by decide), .rotor rotorPlaylist rotorClockwise,
        .rotor rotorParam rotorClockwise] :=
  (menu_placed_iff _ (by decide)).mpr (by decide +kernel)

/-- The list is entered at PARAM_PLAYLIST, which is none of its parameters. -/
theorem list_entered_outside :
    (run holdStep init volumeThenList).menu.state = .param ∧
      (run holdStep init volumeThenList).menu.paramId = paramPlaylist ∧
      (run holdStep init volumeThenList).menu.paramIdMin = paramListStart ∧
      (∀ e ∈ volumeThenList, Knob e) ∧
      ¬ Throughout holdStep MenuPlaced init volumeThenList := by
  have hrun : (run holdStep init volumeThenList).menu.state = .param ∧
      (run holdStep init volumeThenList).menu.paramId = paramPlaylist ∧
      (run holdStep init volumeThenList).menu.paramIdMin = paramListStart ∧
      (∀ e ∈ volumeThenList, Knob e) := by decide +kernel
  obtain ⟨hstate, hid, hmin, hknobs⟩ := hrun
  refine ⟨hstate, hid, hmin, hknobs, fun h => ?_⟩
  have hlow := (h.last.param hstate).1
  rw [show (cursorOf (run holdStep init volumeThenList).menu).paramIdMin = _ from hmin,
    show (cursorOf (run holdStep init volumeThenList).menu).paramId = _ from hid] at hlow
  exact absurd hlow (by decide)

/-! ### The selection that APPLY applies -/

/-- With the parameter that was selected when the knob of APPLY was turned. -/
structure Chooser where
  state : State
  chosen : Byte

/-- The knob of APPLY, over a menu that is open in another state. -/
def EntersApply (s : State) : HoldEvent → Prop
  | .rotor id _ => rotorToState id = .apply ∧ s.menu.state ≠ .idle ∧ s.menu.state ≠ .apply
  | _ => False

instance (s : State) : (e : HoldEvent) → Decidable (EntersApply s e)
  | .rotor .. => inferInstanceAs (Decidable (_ ∧ _ ∧ _))
  | .message .. | .exchange _ | .postponeTry | .expire _ | .flushTick | .heartbeatTick | .int2
  | .int3 => .isFalse id

def chooserStep (t : Chooser) (e : HoldEvent) : Chooser :=
  ⟨holdStep t.state e, if EntersApply t.state e then t.state.menu.paramId else t.chosen⟩

/-- What `stop` would act on now is what was chosen. -/
def ActsOnChosen (t : Chooser) : Prop :=
  t.state.menu.state = .apply → t.state.menu.paramId = paramApply →
    stopParam t.state.menu = t.chosen

instance (t : Chooser) : Decidable (ActsOnChosen t) := inferInstanceAs (Decidable (_ → _ → _))

/-- APPLY is not entered from the picture of a name, unless the parameter last
kept is the one selected. -/
def KeepsChoice (t : Chooser) (e : HoldEvent) : Prop :=
  EntersApply t.state e → t.state.menu.state = .tag →
    t.state.menu.secondaryParam = t.state.menu.paramId

instance (t : Chooser) (e : HoldEvent) : Decidable (KeepsChoice t e) :=
  inferInstanceAs (Decidable (_ → _ → _))

/-- In APPLY the choice is kept. -/
structure ChoiceSound (t : Chooser) : Prop where
  hold : HoldSound t.state
  kept : t.state.menu.state = .apply → t.state.menu.secondaryParam = t.chosen

theorem ChoiceSound.acts {t : Chooser} (h : ChoiceSound t) : ActsOnChosen t := by
  intro hstate hid
  have hkept := h.kept hstate
  unfold stopParam
  rw [if_neg, if_pos hstate, hkept]
  rw [hstate, hid]
  decide

/-- The selection a knob leaves in `secondary_param`. -/
theorem rotor_secondary (c : Cursor) (connected : Bool) (param action : Byte)
    (hi : c.state ≠ .idle) :
    (c.rotor connected .apply param action).secondaryParam =
      if c.state = .param ∨ c.state = .value then c.paramId else c.secondaryParam := by
  unfold Cursor.rotor
  rw [if_neg fun h => hi h.2, if_neg hi]
  split
  · rename_i hsame
    rw [if_neg (by rw [hsame]; decide)]
    rfl
  · rename_i hother
    unfold Cursor.turn Cursor.enter Cursor.adjust
    dsimp only
    rw [if_neg fun h => h.elim hi hother]
    split
    · rename_i hlist
      rw [if_pos hlist.1]
    · rename_i hlist
      rw [if_neg fun h => hlist ⟨h, rfl⟩]

/-- A step that enters APPLY from nowhere. -/
theorem ChoiceSound.of_same {t : Chooser} (h : ChoiceSound t) {e : HoldEvent}
    (hc : cursorAfter t.state e = cursorOf t.state.menu) (he : ¬ EntersApply t.state e) :
    (cursorAfter t.state e).state = .apply →
      (cursorAfter t.state e).secondaryParam = (chooserStep t e).chosen := by
  intro hstate
  rw [hc] at hstate ⊢
  exact (h.kept hstate).trans (if_neg he).symm

theorem choiceSound_step {t : Chooser} (h : ChoiceSound t) (e : HoldEvent) (hc : KeepsChoice t e) :
    ChoiceSound (chooserStep t e) := by
  have hcursor := holdStep_cursor h.hold.wired e
  suffices hkept : (cursorAfter t.state e).state = .apply →
      (cursorAfter t.state e).secondaryParam = (chooserStep t e).chosen by
    refine ⟨hold_sound_step h.hold e, ?_⟩
    rw [← hcursor] at hkept
    exact hkept
  cases e with
  | message m fits =>
    by_cases hnamed : IsNamed t.state m
    · have hafter : cursorAfter t.state (.message m fits) =
          { cursorOf t.state.menu with state := .tag } := if_pos hnamed
      rw [hafter]
      exact fun hs => by cases hs
    · exact h.of_same (if_neg hnamed) fun he => he
  | rotor id action =>
    have hafter : cursorAfter t.state (.rotor id action) = (cursorOf t.state.menu).rotor
      t.state.isConnected (rotorToState id) (rotorToParam t.state.isConnected id) action := rfl
    intro hstate
    rw [hafter, Cursor.rotor_state] at hstate
    have happly : rotorToState id = .apply := by
      split at hstate
      · cases hstate
      · exact hstate
    have hopen : t.state.menu.state ≠ .idle := by
      intro hidle
      rw [if_pos ⟨happly, hidle⟩] at hstate
      cases hstate
    rw [hafter, happly, rotor_secondary _ _ _ _ hopen]
    by_cases hsame : t.state.menu.state = .apply
    · have hnot : ¬ EntersApply t.state (.rotor id action) := fun he => he.2.2 hsame
      rw [if_neg (show ¬ ((cursorOf t.state.menu).state = .param ∨
        (cursorOf t.state.menu).state = .value) by
          rw [show (cursorOf t.state.menu).state = .apply from hsame]; decide)]
      exact (h.kept hsame).trans (if_neg hnot).symm
    · have henters : EntersApply t.state (.rotor id action) := ⟨happly, hopen, hsame⟩
      have hchosen : (chooserStep t (.rotor id action)).chosen = t.state.menu.paramId :=
        if_pos henters
      rw [hchosen]
      split
      · rfl
      · -- neither the list nor a value is left: the picture of a name is
        rename_i hlist
        have htag : t.state.menu.state = .tag := by
          cases hs : t.state.menu.state with
          | apply => exact absurd hs hsame
          | idle => exact absurd hs hopen
          | param => exact absurd (.inl hs) hlist
          | tag => rfl
          | value => exact absurd (.inr hs) hlist
        exact hc henters htag
  | expire id =>
    by_cases hmenu : id = .menu ∧ t.state.timers.callback id ≠ none
    · have hafter : cursorAfter t.state (.expire id) = (cursorOf t.state.menu).reset :=
        if_pos hmenu
      rw [hafter]
      exact fun hs => by cases hs
    · exact h.of_same (if_neg hmenu) fun he => he
  | _ => exact h.of_same rfl fun he => he

theorem init_choiceSound (chosen : Byte) : ChoiceSound ⟨init, chosen⟩ := by
  refine ⟨init_holdSound, fun hs => ?_⟩
  have hidle : init.menu.state = .idle := congrArg Cursor.state init_cursor
  rw [hidle] at hs
  cases hs

/-- In every run in which APPLY is not entered from the picture of a name, unless
with the parameter last kept, `stop` acts on the parameter that was selected when
the knob of APPLY was turned. -/
theorem apply_acts_on_chosen (chosen : Byte) (es : List HoldEvent)
    (h : Along chooserStep KeepsChoice ⟨init, chosen⟩ es) :
    Throughout chooserStep ActsOnChosen ⟨init, chosen⟩ es := by
  have hsound : Throughout chooserStep ChoiceSound ⟨init, chosen⟩ es :=
    throughout_of_along (fun _ e hi hc => choiceSound_step hi e hc) (init_choiceSound chosen) h
  rw [throughout_iff_start] at hsound ⊢
  exact fun ds hd => (hsound ds hd).acts

/-- The Pi has told the playlist, another one is selected, and its name arrives. -/
def playlistNamed : List HoldEvent :=
  [.message ⟨0, msgIdHandshake, []⟩ (Nat.zero_le _), .rotor rotorPlaylist rotorClockwise,
    .message ⟨1, msgIdQueryNumber, [parameterPlaylist, 3, 0, 9]⟩ (by decide),
    .rotor rotorPlaylist rotorClockwise]

theorem apply_acts_on_playlist :
    Throughout chooserStep ActsOnChosen ⟨init, 0⟩
      (playlistNamed ++ [HoldEvent.rotor rotorApply rotorClockwise]) :=
  apply_acts_on_chosen 0 _ (by decide +kernel)

/-- With the name on display the knob of APPLY is turned: `stop` acts on the
track, and sends nothing about the playlist that was selected. -/
theorem apply_acts_on_track :
    let t := run chooserStep ⟨init, 0⟩ (playlistNamed ++
      [HoldEvent.message ⟨2, msgIdQueryName, [parameterPlaylist, 4]⟩ (by decide),
        .rotor rotorApply rotorClockwise])
    t.state.menu.state = .apply ∧ t.state.menu.paramId = paramApply ∧
      t.chosen = paramPlaylist ∧ stopParam t.state.menu = paramTrack ∧ ¬ ActsOnChosen t := by
  decide +kernel

end LedServer.Avr
