import LedServer.MenuCursor

set_option autoImplicit false

/-!
# The name on display

`tag_request` asks for the name of the value that is selected; the answer is
compared with copies of the selection, which may be older or newer.
-/
namespace LedServer.Avr
open Machine

/-- The value of the parameter that is being selected. -/
def selectedValue (m : Menu) : Byte := m.paramNew (valueIdOf m.paramId)

/-- An entry into STATE_TAG: the state it comes from, the id in the reply and the
value selected then. -/
structure TagEntry where
  origin : MenuState
  id : Byte
  value : Byte
deriving DecidableEq

structure TagLog where
  state : State
  entries : List TagEntry

/-- The id in a name. -/
def replyId (s : State) : HoldEvent → Byte
  | .message m _ => inByte (arrive s.decoder m) 1
  | _ => 0

def EntersTag (s : State) (e : HoldEvent) : Prop :=
  s.menu.state ≠ .tag ∧ (holdStep s e).menu.state = .tag

instance (s : State) (e : HoldEvent) : Decidable (EntersTag s e) :=
  inferInstanceAs (Decidable (_ ∧ _))

def tagStep (t : TagLog) (e : HoldEvent) : TagLog :=
  ⟨holdStep t.state e,
    if EntersTag t.state e then
      t.entries ++ [⟨t.state.menu.state, replyId t.state e, selectedValue t.state.menu⟩]
    else t.entries⟩

/-- STATE_TAG has been entered from STATE_VALUE only, by the id that was selected,
and the name on display is still the selected one's. -/
structure Named (t : TagLog) : Prop where
  entries : ∀ entry ∈ t.entries, entry.origin = .value ∧ entry.id = entry.value
  shown : t.state.menu.state = .tag →
    ∃ entry, t.entries.getLast? = some entry ∧ entry.id = selectedValue t.state.menu

/-- What `tag_request` tests before it asks. -/
def Asks (m : Menu) : Prop :=
  m.state = .value ∧ m.paramId = m.tagParam ∧
    m.tagValue = m.paramNew (if m.paramId = paramPlaylist then .playlist else .track)

instance (m : Menu) : Decidable (Asks m) := inferInstanceAs (Decidable (_ ∧ _))

/-- The value a number is told about. -/
def toldId (parameter : Byte) : Option ValueId :=
  if parameter = parameterVolume then some .volume
  else if parameter = parameterTrack then some .track
  else if parameter = parameterPlaylist then some .playlist
  else none

/-- A name in time comes while `tag_request` would still ask for it, and the
selected value is told no other number while its name is on display. -/
def NamesSelected (t : TagLog) : HoldEvent → Prop
  | .message m _ =>
    (IsNamed t.state m → t.state.menu.state ≠ .tag → Asks t.state.menu) ∧
      (m.id = msgIdQueryNumber → t.state.menu.state = .tag →
        toldId (inByte (arrive t.state.decoder m) 0) = some (valueIdOf t.state.menu.paramId) →
          inByte (arrive t.state.decoder m) 1 = selectedValue t.state.menu)
  | _ => True

instance (t : TagLog) : (e : HoldEvent) → Decidable (NamesSelected t e)
  | .message .. => inferInstanceAs (Decidable ((_ → _ → _) ∧ (_ → _ → _ → _)))
  | .exchange _ | .postponeTry | .rotor .. | .expire _ | .flushTick | .heartbeatTick | .int2
  | .int3 => .isTrue trivial

/-! ### The selected value -/

theorem menuParameterValue_paramNew (s : State) (parameter value min max : Byte) (i : ValueId) :
    (menuParameterValue s parameter value min max).1.menu.paramNew i =
      if toldId parameter = some i then value else s.menu.paramNew i := by
  have hsched : ∀ (s : State) (delay : Byte), (schedule s delay).menu = s.menu := fun _ _ => rfl
  have hupdate : ∀ id : ValueId, Function.update s.menu.paramNew id value i =
      if some id = some i then value else s.menu.paramNew i := by
    intro id
    rw [Function.update_apply]
    simp only [Option.some.injEq, eq_comm]
  unfold menuParameterValue
  by_cases hvolume : parameter = parameterVolume
  · have htold : toldId parameter = some .volume := if_pos hvolume
    rw [if_neg fun h => h.1 hvolume, htold]
    simp only [hsched, if_pos hvolume]
    exact hupdate .volume
  by_cases htrack : parameter = parameterTrack
  · have htold : toldId parameter = some .track := (if_neg hvolume).trans (if_pos htrack)
    rw [if_neg fun h => h.2.1 htrack, htold]
    simp only [hsched, if_neg hvolume, if_pos htrack]
    exact hupdate .track
  by_cases hlist : parameter = parameterPlaylist
  · have htold : toldId parameter = some .playlist :=
      (if_neg hvolume).trans ((if_neg htrack).trans (if_pos hlist))
    rw [if_neg fun h => h.2.2 hlist, htold]
    simp only [hsched, if_neg hvolume, if_neg htrack]
    exact hupdate .playlist
  · have htold : toldId parameter = none :=
      (if_neg hvolume).trans ((if_neg htrack).trans (if_neg hlist))
    rw [if_pos ⟨hvolume, htrack, hlist⟩, htold, if_neg (by simp)]

theorem selectedValue_told (s : State) (parameter value min max : Byte) :
    selectedValue (menuParameterValue s parameter value min max).1.menu =
      if toldId parameter = some (valueIdOf s.menu.paramId) then value
      else selectedValue s.menu := by
  have hid : (menuParameterValue s parameter value min max).1.menu.paramId = s.menu.paramId :=
    congrArg Cursor.paramId (menuParameterValue_cursor s parameter value min max)
  unfold selectedValue
  rw [hid, menuParameterValue_paramNew]

/-- A name in time is about a track or a playlist, and its id is the copy. -/
theorem IsNamed.copy {s : State} {m : Message} (h : IsNamed s m) :
    s.menu.paramId = s.menu.tagParam ∧ inByte (arrive s.decoder m) 1 = s.menu.tagValue ∧
      valueIdOf s.menu.paramId = if s.menu.paramId = paramPlaylist then .playlist else .track := by
  obtain ⟨-, -, hparam, htag, hvalue⟩ := h
  refine ⟨hparam.symm.trans htag, hvalue, ?_⟩
  rw [← hparam]
  split <;> decide

theorem IsNamed.asks_iff {s : State} {m : Message} (h : IsNamed s m) :
    Asks s.menu ↔
      s.menu.state = .value ∧ inByte (arrive s.decoder m) 1 = selectedValue s.menu := by
  obtain ⟨htag, hid, hvalue⟩ := h.copy
  unfold Asks selectedValue
  rw [hid, hvalue]
  exact ⟨fun ha => ⟨ha.1, ha.2.2⟩, fun ha => ⟨ha.1, htag, ha.2⟩⟩

/-! ### Steps -/

theorem atExpire_idle {s : State} (h : TableSound s.timers.callback) (id : AtId) :
    (atExpire s id).menu = s.menu ∨ (atExpire s id).menu.state = .idle := by
  have hmenu := atExpire_menu (fun m => m) h rfl id
  split_ifs at hmenu
  · rw [hmenu]
    exact .inr rfl
  · exact .inl hmenu

/-- Only a message leads to STATE_TAG, and only a message changes what is selected
while it lasts. -/
theorem silent_tag {s : State} (h : Wired s) {e : HoldEvent}
    (he : ∀ m fits, e ≠ .message m fits) (htag : (holdStep s e).menu.state = .tag) :
    (holdStep s e).menu = s.menu := by
  have hfixed : ∀ {s' : State}, s'.menu = s.menu ∨ s'.menu.state = .idle →
      s'.menu.state = .tag → s'.menu = s.menu := by
    rintro s' (hs | hs) ht
    · exact hs
    · rw [hs] at ht
      cases ht
  cases e with
  | message m fits => exact absurd rfl (he m fits)
  | rotor id action =>
    have hcursor := congrArg Cursor.state (menuHandleRotor_cursor s id action)
    rw [Cursor.rotor_state] at hcursor
    have hnew : (menuHandleRotor s id action).menu.state ≠ .tag := by
      rw [show (menuHandleRotor s id action).menu.state = _ from hcursor]
      split
      · decide
      · exact (rotorToState_open id).2
    exact absurd htag hnew
  | expire id => exact hfixed (atExpire_idle h.table id) htag
  | flushTick => exact menu_ite id rfl rfl
  | heartbeatTick => exact menu_ite id (heartbeatVerify_menu h) rfl
  | int3 => rfl
  | exchange received => rfl
  | postponeTry => rfl
  | int2 => exact twi_menu s _

/-- A step that leaves the menu, or leaves STATE_TAG. -/
theorem named_silent {t : TagLog} (hw : Wired t.state) (h : Named t) {e : HoldEvent}
    (he : ∀ m fits, e ≠ .message m fits) : Named (tagStep t e) := by
  have hnot : ¬ EntersTag t.state e := by
    rintro ⟨hother, htag⟩
    rw [silent_tag hw he htag] at htag
    exact hother htag
  have hentries : (tagStep t e).entries = t.entries := if_neg hnot
  refine ⟨?_, fun htag => ?_⟩
  · rw [hentries]
    exact h.entries
  · have hsame : (tagStep t e).state.menu = t.state.menu := silent_tag hw he htag
    rw [hsame] at htag ⊢
    rw [hentries]
    exact h.shown htag

theorem named_message_iff {t : TagLog} (h : Named t) {m : Message}
    (fits : m.payload.length ≤ inSize) :
    Named (tagStep t (.message m fits)) ↔ NamesSelected t (.message m fits) := by
  have hmenu : (tagStep t (.message m fits)).state.menu = (receive t.state m).menu := rfl
  have hreceive := receive_menu t.state m
  by_cases hnamed : IsNamed t.state m
  · rw [if_pos hnamed] at hreceive
    have hnumber : m.id ≠ msgIdQueryNumber := by
      rw [hnamed.1]
      decide
    by_cases htag : t.state.menu.state = .tag
    · -- the name is on display already
      have hentries : (tagStep t (.message m fits)).entries = t.entries :=
        if_neg fun he => he.1 htag
      refine iff_of_true ⟨?_, fun _ => ?_⟩ ⟨fun _ hn => absurd htag hn, fun hn => absurd hn hnumber⟩
      · rw [hentries]
        exact h.entries
      · rw [hentries, hmenu, hreceive]
        exact h.shown htag
    · have henters : EntersTag t.state (.message m fits) := by
        refine ⟨htag, ?_⟩
        rw [show (holdStep t.state (.message m fits)).menu = _ from hreceive]
      have hentries : (tagStep t (.message m fits)).entries = t.entries ++
          [⟨t.state.menu.state, inByte (arrive t.state.decoder m) 1,
            selectedValue t.state.menu⟩] := if_pos henters
      have hselects : NamesSelected t (.message m fits) ↔ t.state.menu.state = .value ∧
          inByte (arrive t.state.decoder m) 1 = selectedValue t.state.menu := by
        rw [← hnamed.asks_iff]
        exact ⟨fun hc => hc.1 hnamed htag, fun ha => ⟨fun _ _ => ha, fun hn => absurd hn hnumber⟩⟩
      rw [hselects]
      constructor
      · intro hn
        exact hn.entries _ (by rw [hentries]; exact List.mem_append_right _ List.mem_cons_self)
      · rintro ⟨horigin, hid⟩
        refine ⟨fun entry hentry => ?_, fun _ => ?_⟩
        · rw [hentries] at hentry
          rcases List.mem_append.mp hentry with hold | hnew
          · exact h.entries entry hold
          · rw [List.mem_singleton.mp hnew]
            exact ⟨horigin, hid⟩
        · refine ⟨_, by rw [hentries, List.getLast?_concat], ?_⟩
          rw [hmenu, hreceive]
          exact hid
  rw [if_neg hnamed] at hreceive
  by_cases hnumber : m.id = msgIdQueryNumber
  · rw [if_pos hnumber] at hreceive
    have hstate : (receive t.state m).menu.state = t.state.menu.state := by
      rw [hreceive]
      exact congrArg Cursor.state (menuParameterValue_cursor t.state _ _ _ _)
    have hvalue : selectedValue (receive t.state m).menu =
        if toldId (inByte (arrive t.state.decoder m) 0) = some (valueIdOf t.state.menu.paramId) then
          inByte (arrive t.state.decoder m) 1
        else selectedValue t.state.menu := by
      rw [hreceive]
      exact selectedValue_told t.state _ _ _ _
    have hentries : (tagStep t (.message m fits)).entries = t.entries := by
      refine if_neg fun he => he.1 ?_
      rw [← hstate]
      exact he.2
    constructor
    · intro hn
      refine ⟨fun hin => absurd hin hnamed, fun _ htag htold => ?_⟩
      obtain ⟨entry, hlast, hid⟩ := hn.shown (hstate.trans htag)
      obtain ⟨entry', hlast', hid'⟩ := h.shown htag
      rw [hentries, hlast'] at hlast
      rw [hmenu, hvalue, if_pos htold] at hid
      rw [← hid, ← hid', Option.some.inj hlast]
    · rintro ⟨-, hc⟩
      refine ⟨?_, fun htag => ?_⟩
      · rw [hentries]
        exact h.entries
      · have htag' : t.state.menu.state = .tag := hstate.symm.trans htag
        obtain ⟨entry, hlast, hid⟩ := h.shown htag'
        refine ⟨entry, by rw [hentries, hlast], ?_⟩
        rw [hmenu, hvalue, hid]
        split
        · rename_i htold
          exact (hc hnumber htag' htold).symm
        · rfl
  · rw [if_neg hnumber] at hreceive
    have hentries : (tagStep t (.message m fits)).entries = t.entries := by
      refine if_neg fun he => he.1 ?_
      rw [← hreceive]
      exact he.2
    refine iff_of_true ⟨?_, fun htag => ?_⟩
      ⟨fun hin => absurd hin hnamed, fun hn => absurd hn hnumber⟩
    · rw [hentries]
      exact h.entries
    · rw [hmenu, hreceive] at htag ⊢
      rw [hentries]
      exact h.shown htag

theorem named_step_iff {t : TagLog} (hw : Wired t.state) (h : Named t) (e : HoldEvent) :
    Named (tagStep t e) ↔ NamesSelected t e := by
  cases e with
  | message m fits => exact named_message_iff h fits
  | _ => exact iff_of_true (named_silent hw h fun _ _ he => by cases he) trivial

/-! ### Whole runs -/

/-- From power on, STATE_TAG is entered from STATE_VALUE by the id selected, and
shows the name of the value selected, throughout a run exactly when every name in
time comes while `tag_request` would ask for it, and its value is told no other
number while it is shown. -/
theorem named_iff (es : List HoldEvent) :
    Throughout tagStep Named ⟨init, []⟩ es ↔ Along tagStep NamesSelected ⟨init, []⟩ es := by
  refine throughout_iff_along (I := fun t => HoldSound t.state)
    (fun t e hi _ _ => hold_sound_step hi e) (fun t e hi h => named_step_iff hi.wired h e)
    init_holdSound ⟨fun entry hentry => absurd hentry List.not_mem_nil, fun htag => ?_⟩
  have hidle : init.menu.state = .idle := congrArg Menu.state (modeSet_menu powerUp .watch)
  rw [show (TagLog.mk init []).state.menu.state = _ from hidle] at htag
  cases htag

/-- The menu is closed before the name of the first track arrives. -/
def lateName : List HoldEvent :=
  [.message ⟨0, msgIdHandshake, []⟩ (Nat.zero_le _), .rotor rotorTrack rotorClockwise,
    .message ⟨1, msgIdQueryNumber, [parameterTrack, 1, 0, 9]⟩ (by decide),
    .rotor rotorTrack rotorCounterClockwise, .expire .menuTag, .expire .menu,
    .message ⟨2, msgIdQueryName, [parameterTrack, 0]⟩ (by decide)]

/-- The late name opens its picture from the closed menu. -/
theorem tag_entered_from_idle :
    (run tagStep ⟨init, []⟩ lateName).state.menu.state = .tag ∧
      (run tagStep ⟨init, []⟩ lateName).entries = [⟨.idle, 0, 0⟩] ∧
      ¬ Throughout tagStep Named ⟨init, []⟩ lateName := by
  have hrun : (run tagStep ⟨init, []⟩ lateName).state.menu.state = .tag ∧
      (run tagStep ⟨init, []⟩ lateName).entries = [⟨.idle, 0, 0⟩] := by decide +kernel
  refine ⟨hrun.1, hrun.2, fun h => ?_⟩
  have hentry := h.last.entries ⟨.idle, 0, 0⟩ (by rw [hrun.2]; exact List.mem_cons_self)
  exact absurd hentry.1 (by decide)

end LedServer.Avr
