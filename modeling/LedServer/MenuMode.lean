import LedServer.Machine
import LedServer.MenuPanel

set_option autoImplicit false

/-!
# The menu and the mode over whole runs

`backup_mode` is the mode the menu was opened in, and `MODE_MENU` while it is
closed. `stop` restores it whether or not the menu is open.
-/
namespace LedServer.Avr
open AvrRing Machine

inductive MenuEvent where
  | rotor (id action : Byte)
  | value (parameter value min max : Byte)
  | name (parameter id : Byte)
  | menuExpire
  | tagExpire

def menuStep (s : State) : MenuEvent → State
  | .rotor id action => menuHandleRotor s id action
  | .value parameter value min max => (menuParameterValue s parameter value min max).1
  | .name parameter id => (menuParameterName s parameter id).1
  | .menuExpire => atExpire s .menu
  | .tagExpire => atExpire s .menuTag

/-- How the drain flag and the mode go with the state of the menu. -/
def Panel.Coupled (home : Mode) (p : Panel) : Prop :=
  match p.state with
  | .idle => p.drain = false ∧ p.mode = home
  | .tag => p.drain = false ∧ p.mode = .radio
  | .param | .value | .apply => p.drain = true ∧ p.mode = .menu

def Coupled (home : Mode) (s : State) : Prop := (panelOf s).Coupled home

/-- `AT_MENU`, when it is scheduled, does not run out with `MODE_MENU` to go back to. -/
def StopReturns (s : State) : MenuEvent → Prop
  | .menuExpire => s.timers.callback .menu ≠ none → s.menu.backupMode ≠ .menu
  | _ => True

instance (s : State) (e : MenuEvent) : Decidable (StopReturns s e) := by
  cases e <;> unfold StopReturns <;> infer_instance

/-- After `menu_init`, with the menu closed. -/
structure MenuClosed (s : State) : Prop where
  state : s.menu.state = .idle
  backup : s.menu.backupMode = .menu
  drain : s.flush.drain = false
  mode : s.currentMode ≠ .menu
  wired : Wired s

/-- While the menu is closed nothing is kept to go back to, else `home` or nothing. -/
structure Backed (home : Mode) (s : State) : Prop where
  wired : Wired s
  closed : s.menu.state = .idle → s.menu.backupMode = .menu
  backup : s.menu.backupMode = .menu ∨ s.menu.backupMode = home

theorem quiet_menuStep (s : State) (e : MenuEvent) : Quiet s (menuStep s e) := by
  cases e with
  | rotor id action => exact quiet_menuHandleRotor s id action
  | value parameter value min max => exact quiet_menuParameterValue s parameter value min max
  | name parameter id => exact quiet_menuParameterName s parameter id
  | menuExpire => exact quiet_atExpire s .menu
  | tagExpire => exact quiet_atExpire s .menuTag

section Panels

variable {home : Mode} {p : Panel}

/-- A knob other than the open menu's own opens it, or goes to another state of it. -/
theorem Panel.rotor_coupled (h : p.Coupled home) {new : MenuState} (hi : new ≠ .idle)
    (ht : new ≠ .tag) : (p.rotor new).Coupled home := by
  obtain ⟨state, mode, backup, drain, shiftData⟩ := p
  cases state <;> cases new <;>
    simp_all [Panel.Coupled, Panel.rotor, Panel.start, Panel.setState]

theorem Panel.rotor_backup (h : p.Coupled home) (hc : p.state = .idle → p.backup = .menu)
    (hb : p.backup = .menu ∨ p.backup = home) {new : MenuState} (hi : new ≠ .idle)
    (ht : new ≠ .tag) :
    ((p.rotor new).state = .idle → (p.rotor new).backup = .menu) ∧
      ((p.rotor new).backup = .menu ∨ (p.rotor new).backup = home) := by
  obtain ⟨state, mode, backup, drain, shiftData⟩ := p
  cases state <;> cases new <;>
    simp_all [Panel.Coupled, Panel.rotor, Panel.start, Panel.setState]

theorem Panel.setState_tag (home : Mode) (p : Panel) :
    (p.setState .tag).state = .tag ∧ (p.setState .tag).backup = p.backup ∧
      (p.Coupled home → (p.setState .tag).Coupled home) := by
  obtain ⟨state, mode, backup, drain, shiftData⟩ := p
  cases state <;> simp [Panel.Coupled, Panel.setState]

/-- Closing goes back home exactly when home has been kept. -/
theorem Panel.stop_coupled (hhome : home ≠ .menu) (hb : p.backup = .menu ∨ p.backup = home) :
    p.stop.Coupled home ↔ p.backup ≠ .menu := by
  unfold Panel.stop Panel.Coupled
  dsimp only
  rcases hb with hb | hb
  · rw [hb]
    exact iff_of_false (fun h => hhome h.2.symm) (fun h => h rfl)
  · rw [hb]
    exact iff_of_true ⟨rfl, rfl⟩ hhome

end Panels

/-- What a step is to the panel. -/
theorem panelOf_menuStep {s : State} (h : Wired s) (e : MenuEvent) :
    (∃ new, new ≠ .idle ∧ new ≠ .tag ∧ panelOf (menuStep s e) = (panelOf s).rotor new ∧
        StopReturns s e) ∨
      (panelOf (menuStep s e) = panelOf s ∧ StopReturns s e) ∨
      (panelOf (menuStep s e) = (panelOf s).setState .tag ∧ StopReturns s e) ∨
      (panelOf (menuStep s e) = (panelOf s).stop ∧
        (StopReturns s e ↔ s.menu.backupMode ≠ .menu)) := by
  cases e with
  | rotor id action =>
    obtain ⟨hi, ht⟩ := rotorToState_open id
    exact .inl ⟨_, hi, ht, panelOf_menuHandleRotor s id action, trivial⟩
  | value parameter value min max =>
    exact .inr (.inl ⟨panelOf_menuParameterValue s parameter value min max, trivial⟩)
  | name parameter id =>
    have hp : panelOf (menuStep s (.name parameter id)) = _ :=
      panelOf_menuParameterName s parameter id
    split at hp
    · exact .inr (.inr (.inl ⟨hp, trivial⟩))
    · exact .inr (.inl ⟨hp, trivial⟩)
  | menuExpire =>
    have hp : panelOf (menuStep s .menuExpire) = _ := panelOf_atExpire h.table .menu
    by_cases hcb : s.timers.callback .menu = none
    · rw [if_neg fun hn => hn.2 hcb] at hp
      exact .inr (.inl ⟨hp, fun hn => absurd hcb hn⟩)
    · rw [if_pos ⟨rfl, hcb⟩] at hp
      exact .inr (.inr (.inr ⟨hp, fun hs => hs hcb, fun hb _ => hb⟩))
  | tagExpire =>
    have hp : panelOf (menuStep s .tagExpire) = _ := panelOf_atExpire h.table .menuTag
    rw [if_neg (by simp)] at hp
    exact .inr (.inl ⟨hp, trivial⟩)

theorem coupled_step_iff {home : Mode} (hhome : home ≠ .menu) {s : State} (hi : Backed home s)
    (hp : Coupled home s) (e : MenuEvent) : Coupled home (menuStep s e) ↔ StopReturns s e := by
  unfold Coupled at hp ⊢
  rcases panelOf_menuStep hi.wired e with ⟨new, hni, hnt, hn, hs⟩ | ⟨hn, hs⟩ | ⟨hn, hs⟩ | ⟨hn, hs⟩
  · rw [hn]
    exact iff_of_true (Panel.rotor_coupled hp hni hnt) hs
  · rw [hn]
    exact iff_of_true hp hs
  · rw [hn]
    exact iff_of_true ((Panel.setState_tag home (panelOf s)).2.2 hp) hs
  · rw [hn, hs]
    exact Panel.stop_coupled hhome hi.backup

theorem backed_step {home : Mode} {s : State} (hi : Backed home s) (hp : Coupled home s)
    (e : MenuEvent) : Backed home (menuStep s e) := by
  have hwired := (quiet_menuStep s e).wired hi.wired
  have hpanel : ∀ q : Panel, panelOf (menuStep s e) = q → (q.state = .idle → q.backup = .menu) →
      (q.backup = .menu ∨ q.backup = home) → Backed home (menuStep s e) := by
    rintro q rfl hc hb
    exact ⟨hwired, hc, hb⟩
  rcases panelOf_menuStep hi.wired e with ⟨new, hni, hnt, hn, -⟩ | ⟨hn, -⟩ | ⟨hn, -⟩ | ⟨hn, -⟩
  · obtain ⟨hc, hb⟩ := Panel.rotor_backup hp hi.closed hi.backup hni hnt
    exact hpanel _ hn hc hb
  · exact hpanel _ hn hi.closed hi.backup
  · obtain ⟨hstate, hback, -⟩ := Panel.setState_tag home (panelOf s)
    refine hpanel _ hn (fun hidle => ?_) (by rw [hback]; exact hi.backup)
    rw [hstate] at hidle
    exact absurd hidle (by simp)
  · exact hpanel _ hn (fun _ => rfl) (.inl rfl)

/-- The menu, the mode and the drain flag stay in step throughout a run exactly
when `AT_MENU` never runs out with `MODE_MENU` kept as the mode to go back to. -/
theorem menu_coupled_iff {s : State} (h : MenuClosed s) (es : List MenuEvent) :
    Throughout menuStep (Coupled s.currentMode) s es ↔ Along menuStep StopReturns s es := by
  refine throughout_iff_along (I := Backed s.currentMode)
    (fun s' e hi hp _ => backed_step hi hp e)
    (fun s' e hi hp => coupled_step_iff h.mode hi hp e) ⟨h.wired, fun _ => h.backup, .inl h.backup⟩
    ?_
  unfold Coupled Panel.Coupled panelOf
  rw [h.state]
  exact ⟨h.drain, rfl⟩

/-- The AVR in radio mode, with the menu closed. -/
def radioInit : State := modeSet init .radio

theorem powerUp_wired : Wired powerUp :=
  ⟨fun _ _ h => absurd h (by simp [powerUp, timersInit]), .inl rfl, .inl rfl,
    fun h => absurd h (by decide +kernel)⟩

theorem init_wired : Wired init := modeSet_wired _ _ powerUp_wired

theorem radioInit_menuClosed : MenuClosed radioInit where
  state := by decide +kernel
  backup := by decide +kernel
  drain := by decide +kernel
  mode := by decide +kernel
  wired := modeSet_wired _ _ init_wired

theorem menu_coupled_of_volume :
    Throughout menuStep (Coupled radioInit.currentMode) radioInit
      [.rotor rotorVolume rotorClockwise, .value parameterVolume 5 0 10, .menuExpire] :=
  (menu_coupled_iff radioInit_menuClosed _).mpr (by decide +kernel)

/-- The volume asked for arrives after the menu has closed by itself: five
seconds later the radio is in menu mode with no menu open. -/
theorem late_value_leaves_menu_mode :
    (run menuStep radioInit [.rotor rotorVolume rotorClockwise, .menuExpire,
      .value parameterVolume 5 0 10, .menuExpire]).menu.state = .idle ∧
    (run menuStep radioInit [.rotor rotorVolume rotorClockwise, .menuExpire,
      .value parameterVolume 5 0 10, .menuExpire]).currentMode = .menu := by
  decide +kernel

end LedServer.Avr
