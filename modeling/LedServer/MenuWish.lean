import LedServer.PictureRun

set_option autoImplicit false

/-!
# What a menu does as it closes

A menu that closes over a parameter or a value does what its picture says: the
parameter is named there, and so are the number it has and the one chosen.
-/
namespace LedServer.Avr
open AvrRing Machine

/-- What a menu comes to that closes over a parameter. -/
inductive Wish where
  | nothing
  | brightness (bNess : Byte)
  | paramSet (parameter sign abs : Byte)
  | poweroff (delay : Byte)
  | boot
  | reboot
deriving DecidableEq

def Wish.grant (s : State) : Wish → State
  | .nothing => s
  | .brightness bNess => setBrightness s bNess
  | .paramSet parameter sign abs => sendMessage3 s parameter sign abs
  | .poweroff delay => sendMessage1 s msgIdPoweroff delay
  | .boot => bootPi s
  | .reboot => sendMessage0 s msgIdReboot

/-- The two numbers of a reading, when both are there. -/
def Reading.numbers (r : Reading) : Option (Byte × Byte) :=
  match r.source, r.destination with
  | some (some source), some destination =>
    some (BitVec.ofNat 8 source, BitVec.ofNat 8 destination)
  | _, _ => none

/-- The distance between two numbers, if they have been asked for. -/
def distance (parameter : Byte) (numbers : Option (Byte × Byte)) (asked : Bool) : Wish :=
  match numbers with
  | some (source, destination) =>
    if asked then .paramSet parameter (getSignAbs source destination).1
      (getSignAbs source destination).2
    else .nothing
  | none => .nothing

/-- What a reader of the picture expects of `stop`; `asked` tells whether the
menu has sent the query for the numbers. -/
def wishFor (param : Byte) (numbers : Option (Byte × Byte)) (asked : Bool) : Wish :=
  if param = paramBrightness then
    match numbers with
    | some (source, destination) =>
      if source ≠ destination then .brightness destination else .nothing
    | none => .nothing
  else if param = paramBrightnessMin then .brightness flushBrightnessMin
  else if param = paramBrightnessMiddle then .brightness flushBrightnessMiddle
  else if param = paramBrightnessMax then .brightness flushBrightnessMax
  else if param = paramNext then .paramSet parameterTrack parameterPositive 1
  else if param = paramPlay then .paramSet parameterGoAhead parameterPositive parameterPositive
  else if param = paramPlaylist then
    match distance parameterPlaylist numbers asked with
    | .paramSet parameter sign abs => if abs ≠ 0 then .paramSet parameter sign abs else .nothing
    | _ => .nothing
  else if param = paramPrevious then .paramSet parameterTrack parameterNegative 1
  else if param = paramStop then .paramSet parameterGoAhead parameterNegative parameterNegative
  else if param = paramTrack then distance parameterTrack numbers asked
  else if param = paramVolume then distance parameterVolume numbers asked
  else if param = paramPowerOff then .poweroff 0
  else if param = paramPowerOff15 then .poweroff 15
  else if param = paramPowerOff30 then .poweroff 30
  else if param = paramPowerOn then .boot
  else if param = paramReboot then .reboot
  else .nothing

def Reading.wish (r : Reading) (asked : Bool) : Wish :=
  match r.param with
  | some param => wishFor param r.numbers asked
  | none => .nothing

def sentFlag (param : Byte) : Byte :=
  if param = paramTrack then flagTrackSent
  else if param = paramVolume then flagVolumeSent
  else if param = paramBrightness then flagBrightnessSent else flagPlaylistSent

/-- The query for the numbers of the parameter has been sent. -/
def asked (m : Menu) : Bool := m.paramFlag &&& sentFlag m.paramId ≠ 0

theorem numbers_shown {m : Menu} (h : Numbered m) :
    (shown m).numbers = if Known m then
      some (m.paramOld (valueIdOf m.paramId), m.paramNew (valueIdOf m.paramId)) else none := by
  unfold shown Reading.numbers
  by_cases hknown : Known m
  · simp [h, hknown]
  · simp [h, hknown]

/-- Both flags of a number are set. -/
theorem mask_iff (flags : Byte) :
    (flags &&& flagMaskTrack = flagMaskTrack ↔
      flags &&& flagTrack ≠ 0 ∧ flags &&& flagTrackSent ≠ 0) ∧
    (flags &&& flagMaskVolume = flagMaskVolume ↔
      flags &&& flagVolume ≠ 0 ∧ flags &&& flagVolumeSent ≠ 0) ∧
    (flags &&& flagMaskPlaylist = flagMaskPlaylist ↔
      flags &&& flagPlaylist ≠ 0 ∧ flags &&& flagPlaylistSent ≠ 0) := by
  revert flags
  decide +kernel

theorem grant_distance (s : State) {m : Menu} (h : Numbered m) (parameter : Byte) {mask : Byte}
    (hmask : m.paramFlag &&& mask = mask ↔ Known m ∧ asked m = true) :
    (distance parameter (shown m).numbers (asked m)).grant s =
      if m.paramFlag &&& mask = mask then
        sendMessage3 s parameter
          (getSignAbs (m.paramOld (valueIdOf m.paramId)) (m.paramNew (valueIdOf m.paramId))).1
          (getSignAbs (m.paramOld (valueIdOf m.paramId)) (m.paramNew (valueIdOf m.paramId))).2
      else s := by
  unfold distance
  rw [numbers_shown h]
  by_cases hknown : Known m
  · rw [if_pos hknown]
    dsimp only
    by_cases hasked : asked m = true
    · rw [if_pos hasked, if_pos (hmask.mpr ⟨hknown, hasked⟩)]
      rfl
    · rw [if_neg hasked, if_neg fun hset => hasked (hmask.mp hset).2]
      rfl
  · rw [if_neg hknown, if_neg fun hset => hknown (hmask.mp hset).1]
    rfl

/-- The parameters of the enumeration are all the menu can wish for. -/
theorem wishFor_unnamed {param : Byte} (h : ¬ param ≤ paramApply) (numbers : Option (Byte × Byte))
    (asked : Bool) : wishFor param numbers asked = .nothing := by
  have hne : ∀ named : Byte, named ≤ paramApply → param ≠ named := by
    rintro named hle rfl
    exact h hle
  unfold wishFor
  rw [if_neg (hne paramBrightness (by decide)), if_neg (hne paramBrightnessMin (by decide)),
    if_neg (hne paramBrightnessMiddle (by decide)), if_neg (hne paramBrightnessMax (by decide)),
    if_neg (hne paramNext (by decide)), if_neg (hne paramPlay (by decide)),
    if_neg (hne paramPlaylist (by decide)), if_neg (hne paramPrevious (by decide)),
    if_neg (hne paramStop (by decide)), if_neg (hne paramTrack (by decide)),
    if_neg (hne paramVolume (by decide)), if_neg (hne paramPowerOff (by decide)),
    if_neg (hne paramPowerOff15 (by decide)), if_neg (hne paramPowerOff30 (by decide)),
    if_neg (hne paramPowerOn (by decide)), if_neg (hne paramReboot (by decide))]

theorem stopAction_wish {s : State} (hbright : Bright s.menu)
    (hopen : s.menu.state = .param ∨ s.menu.state = .value) :
    stopAction s s.menu.paramId =
      (wishFor s.menu.paramId (shown s.menu).numbers (asked s.menu)).grant s := by
  have hnumbered : isValue s.menu.paramId = true → Numbered s.menu := fun hvalue => ⟨hopen, hvalue⟩
  obtain ⟨htrack, hvolume, hplaylist⟩ := mask_iff s.menu.paramFlag
  unfold stopAction wishFor
  simp only [apply_ite (Wish.grant s)]
  refine ite_congr rfl (fun hparam => ?_) fun _ => ite_congr rfl (fun _ => rfl) fun _ =>
    ite_congr rfl (fun _ => rfl) fun _ => ite_congr rfl (fun _ => rfl) fun _ =>
    ite_congr rfl (fun _ => rfl) fun _ => ite_congr rfl (fun _ => rfl) fun _ =>
    ite_congr rfl (fun hparam => ?_) fun _ => ite_congr rfl (fun _ => rfl) fun _ =>
    ite_congr rfl (fun _ => rfl) fun _ => ite_congr rfl (fun hparam => ?_) fun _ =>
    ite_congr rfl (fun hparam => ?_) fun _ => ite_congr rfl (fun _ => rfl) fun _ =>
    ite_congr rfl (fun _ => rfl) fun _ => ite_congr rfl (fun _ => rfl) fun _ =>
    ite_congr rfl (fun _ => rfl) fun _ => ite_congr rfl (fun _ => rfl) fun _ => rfl
  · -- `PARAM_BRIGHTNESS`, whose numbers are always there
    have hnumbers := numbers_shown (hnumbered (by rw [hparam]; decide))
    have hknown : Known s.menu := by
      unfold Known
      rw [hparam]
      exact hbright
    rw [hnumbers, if_pos hknown, hparam]
    dsimp only
    rw [apply_ite (Wish.grant s)]
    rfl
  · have hmask : s.menu.paramFlag &&& flagMaskPlaylist = flagMaskPlaylist ↔
        Known s.menu ∧ asked s.menu = true := by
      unfold Known asked
      rw [hplaylist, hparam, decide_eq_true_eq]
      rfl
    have hnumbers := numbers_shown (hnumbered (by rw [hparam]; decide))
    rw [hnumbers, hparam]
    unfold distance
    by_cases hset : s.menu.paramFlag &&& flagMaskPlaylist = flagMaskPlaylist
    · obtain ⟨hknown, hasked⟩ := hmask.mp hset
      rw [if_pos hset, if_pos hknown, hasked]
      dsimp only
      rw [if_pos rfl]
      dsimp only
      rw [apply_ite (Wish.grant s)]
      rfl
    · rw [if_neg hset]
      by_cases hknown : Known s.menu
      · have hasked : ¬ asked s.menu = true := fun hasked => hset (hmask.mpr ⟨hknown, hasked⟩)
        rw [if_pos hknown]
        dsimp only
        rw [if_neg hasked]
        rfl
      · rw [if_neg hknown]
        rfl
  · have hmask : s.menu.paramFlag &&& flagMaskTrack = flagMaskTrack ↔
        Known s.menu ∧ asked s.menu = true := by
      unfold Known asked
      rw [htrack, hparam, decide_eq_true_eq]
      rfl
    rw [grant_distance s (hnumbered (by rw [hparam]; decide)) parameterTrack hmask, hparam]
    rfl
  · have hmask : s.menu.paramFlag &&& flagMaskVolume = flagMaskVolume ↔
        Known s.menu ∧ asked s.menu = true := by
      unfold Known asked
      rw [hvolume, hparam, decide_eq_true_eq]
      rfl
    rw [grant_distance s (hnumbered (by rw [hparam]; decide)) parameterVolume hmask, hparam]
    rfl

/-! ### Runs -/

/-- What `stop` does after its `switch`. -/
def close (s : State) : State :=
  let s := { s with flush := flushShiftDrainStop s.flush }
  let s := modeSet s s.menu.backupMode
  let s := sendMessage0 s msgIdResume
  reset s

theorem stop_close {s : State} (h : s.menu.state ≠ .tag) :
    stop s = close (stopAction s (stopParam s.menu)) := by
  unfold stop
  rw [if_neg h]
  rfl

/-- There is nothing to do in `STATE_IDLE`, nor for `PARAM_CANCEL` in `STATE_APPLY`. -/
theorem stop_nothing {s : State} (htag : s.menu.state ≠ .tag)
    (hparam : stopParam s.menu = paramCancel) : stop s = close s := by
  rw [stop_close htag, hparam]
  rfl

theorem stop_wish {s : State} (hbright : Bright s.menu)
    (hopen : s.menu.state = .param ∨ s.menu.state = .value) :
    stop s = close (((shown s.menu).wish (asked s.menu)).grant s) := by
  have hidle : s.menu.state ≠ .idle := by rcases hopen with h | h <;> rw [h] <;> decide
  have happly : s.menu.state ≠ .apply := by rcases hopen with h | h <;> rw [h] <;> decide
  have htag : s.menu.state ≠ .tag := by rcases hopen with h | h <;> rw [h] <;> decide
  have hparam : stopParam s.menu = s.menu.paramId := by
    unfold stopParam
    rw [if_neg (not_or.mpr ⟨hidle, fun h => happly h.1⟩), if_neg happly]
  have hwish : (shown s.menu).wish (asked s.menu) =
      wishFor s.menu.paramId (shown s.menu).numbers (asked s.menu) := by
    unfold Reading.wish
    by_cases hnamed : s.menu.paramId ≤ paramApply
    · have hname : (shown s.menu).param = some s.menu.paramId := if_pos hnamed
      rw [hname]
    · have hname : (shown s.menu).param = none := if_neg hnamed
      rw [hname, wishFor_unnamed hnamed]
  rw [stop_close htag, hparam, stopAction_wish hbright hopen, hwish]

/-- `stop` does what the menu's picture says of a parameter or a value, and nothing
where it says to cancel or the menu is closed. -/
structure StopsAsShown (t : Screen) : Prop where
  wish : t.state.menu.state = .param ∨ t.state.menu.state = .value → ∀ buf,
    t.picture = some (.menu buf) → ∀ (shiftData : Buffer) (port : Byte),
      stop t.state = close (((readMenu (onDisplays shiftData port buf)).wish
        (asked t.state.menu)).grant t.state)
  cancel : t.state.menu.state = .apply → ∀ buf, t.picture = some (.menu buf) →
    ∀ (shiftData : Buffer) (port : Byte),
      (readMenu (onDisplays shiftData port buf)).param = some paramCancel →
        stop t.state = close t.state
  closed : t.state.menu.state = .idle → stop t.state = close t.state

theorem ScreenSound.stops {t : Screen} (h : ScreenSound t) : StopsAsShown t := by
  have hshows := h.shows
  refine ⟨fun hopen buf hbuf shiftData port => ?_, fun happly buf hbuf shiftData port hcancel => ?_,
    fun hidle => ?_⟩
  · have hreads := hshows.menu (by rcases hopen with h | h <;> rw [h] <;> decide)
      (by rcases hopen with h | h <;> rw [h] <;> decide) buf hbuf shiftData port
    rw [hreads]
    exact stop_wish h.bright hopen
  · have hreads := hshows.menu (by rw [happly]; decide) (by rw [happly]; decide) buf hbuf
      shiftData port
    have hname : (shown t.state.menu).param =
        if t.state.menu.paramId ≤ paramApply then some t.state.menu.paramId else none := rfl
    rw [hreads, hname] at hcancel
    refine stop_nothing (by rw [happly]; decide) (if_pos (.inr ⟨happly, ?_⟩))
    split_ifs at hcancel with hnamed
    exact Option.some.inj hcancel
  · exact stop_nothing (by rw [hidle]; decide) (if_pos (.inl hidle))

/-- In every run of the main loop, a menu that closes does what its picture says. -/
theorem stop_asShown (es : List LoopEvent) :
    Throughout screenStep StopsAsShown screenStart es := by
  rw [throughout_iff_start]
  intro ds _
  exact (run_keeps screenSound_step ds screenStart_sound).stops

end LedServer.Avr
