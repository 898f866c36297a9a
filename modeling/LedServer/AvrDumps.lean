import LedServer.AvrLoop
import LedServer.CronTicks
import LedServer.ReplyHold

set_option autoImplicit false

/-!
# What the main loop does to `shift_data`

A step of the main loop dumps at most once. While the menu is closed, or shows a
name, nothing but a dump takes columns away and nothing but a LED_ARRAY brings
some.
-/
namespace LedServer.Avr
open AvrRing

/-- `shift_data` as `flush_shift_display` dumps it, if it does. -/
def dumped (c : Cpu) : MainEvent → List Buffer
  | .cronTry =>
    if c.pc = .idle then
      match (cronPop c.state.timers).2 with
      | some (_, .flushShiftDisplay) =>
        if bufferSize c.state.flush.shiftData < minDataSize then [] else [c.state.flush.shiftData]
      | _ => []
    else []
  | _ => []

/-- A text scrolls: the menu is closed, or shows a name. -/
def Scrolls (state : MenuState) : Prop := state = .idle ∨ state = .tag

def Unfurled (s : State) : Prop := Scrolls s.menu.state → s.flush.drain = false

/-- Either nothing happens to the text, or the menu closes. -/
def Rests (s s' : State) : Prop :=
  (s'.menu.state = s.menu.state ∧ s'.flush.drain = s.flush.drain ∧
      s'.flush.shiftData = s.flush.shiftData) ∨
    (s'.menu.state = .idle ∧ s'.flush.drain = false ∧
      (s.menu.state ≠ .tag → s'.flush.shiftData = s.flush.shiftData))

theorem Rests.refl (s : State) : Rests s s := .inl ⟨rfl, rfl, rfl⟩

theorem Rests.trans {s₁ s₂ s₃ : State} (h : Rests s₁ s₂) (h' : Rests s₂ s₃) : Rests s₁ s₃ := by
  rcases h with ⟨hstate, hdrain, hdata⟩ | ⟨hstate, hdrain, hdata⟩
  · unfold Rests at h'
    rwa [hstate, hdrain, hdata] at h'
  · have hidle : s₂.menu.state ≠ .tag := by
      rw [hstate]
      decide
    rcases h' with ⟨hstate', hdrain', hdata'⟩ | ⟨hstate', hdrain', hdata'⟩
    · exact .inr ⟨hstate'.trans hstate, hdrain'.trans hdrain, fun htag => hdata'.trans (hdata htag)⟩
    · exact .inr ⟨hstate', hdrain', fun htag => (hdata' hidle).trans (hdata htag)⟩

/-- The same panel but for its modes. -/
theorem rests_of_panel {s s' : State} {p : Panel} (h : panelOf s' = p)
    (hstate : p.state = s.menu.state) (hdrain : p.drain = s.flush.drain)
    (hdata : p.shiftData = s.flush.shiftData) : Rests s s' := by
  subst h
  exact .inl ⟨hstate, hdrain, hdata⟩

theorem rests_stop (s : State) : Rests s (stop s) := by
  have hpanel := panelOf_stop s
  have hdata : (stop s).flush.shiftData = (panelOf s).stop.shiftData :=
    congrArg Panel.shiftData hpanel
  refine .inr ⟨congrArg Panel.state hpanel, congrArg Panel.drain hpanel, fun htag => ?_⟩
  rw [hdata]
  exact if_neg htag

theorem rests_ite {p : Prop} [Decidable p] {s a b : State} (ha : Rests s a) (hb : Rests s b) :
    Rests s (if p then a else b) := by
  split
  · exact ha
  · exact hb

theorem rests_runAtCallback (s : State) (cb : AtCallback) : Rests s (runAtCallback s cb) := by
  cases cb with
  | releaseWire => exact .refl s
  | stop => exact rests_stop s
  | tagRequest => exact rests_of_panel (panelOf_tagRequest s) rfl rfl rfl
  | misconfirm => exact .refl s

theorem rests_atExpire (s : State) (id : AtId) : Rests s (atExpire s id) := by
  unfold atExpire
  cases s.timers.callback id with
  | none => exact .refl s
  | some cb =>
    have hrun := rests_runAtCallback s cb
    exact rests_ite hrun hrun

theorem rests_atVerifyEntry (s : State) (id : AtId) : Rests s (atVerifyEntry s id) := by
  unfold atVerifyEntry
  dsimp only
  refine rests_ite (.refl s) (rests_ite ?_ (.refl s))
  exact Rests.trans (.refl s) (rests_atExpire _ id)

theorem rests_atVerify (s : State) : Rests s (atVerify s) := by
  unfold atVerify
  induction AtId.all generalizing s with
  | nil => exact .refl s
  | cons id ids ih => exact (rests_atVerifyEntry s id).trans (ih (atVerifyEntry s id))

theorem rests_heartbeatVerify (s : State) : Rests s (heartbeatVerify s) := by
  have hrun : ∀ (s : State) (cb : Option HeartbeatCallback),
      Rests s (runHeartbeatCallback s cb) := by
    intro s cb
    rcases cb with _ | _ | _
    · exact .refl s
    · exact rests_of_panel (panelOf_modeSet s .watch) rfl rfl rfl
    · exact .refl s
  unfold heartbeatVerify
  dsimp only
  refine rests_ite ?_ (rests_ite ?_ (.refl s))
  · exact Rests.trans (.refl s) (hrun _ _)
  · exact Rests.trans (.refl s) (hrun _ _)

/-! ### Dumps -/

/-- What becomes of `shift_data` while a text scrolls, and what is dumped. -/
inductive Scrolled (f f' : Flush) : List Buffer → Prop where
  | still (data : f'.shiftData = f.shiftData) : Scrolled f f' []
  | shows (held : 64 ≤ f.shiftData.count)
      (data : f'.shiftData = (bufferByteDrain f.shiftData).1) : Scrolled f f' [f.shiftData]

/-- `cron_try` dumps, or leaves the text alone or closes the menu. -/
theorem cronTry_cases {c : Cpu} (hpc : c.pc = .idle) :
    (dumped c .cronTry = [] ∧ Rests c.state (cronTry c.state)) ∨
      ((cronTry c.state).menu = c.state.menu ∧
        (cronTry c.state).flush.drain = c.state.flush.drain ∧
        Scrolled c.state.flush (cronTry c.state).flush (dumped c .cronTry)) := by
  unfold dumped
  dsimp only
  rw [cronTry_eq, if_pos hpc]
  rcases cronPop c.state.timers with ⟨t, _ | ⟨id, callback⟩⟩
  · exact .inl ⟨rfl, .refl c.state⟩
  · cases callback with
    | atVerify => exact .inl ⟨rfl, Rests.trans (.refl c.state) (rests_atVerify _)⟩
    | heartbeatVerify => exact .inl ⟨rfl, Rests.trans (.refl c.state) (rests_heartbeatVerify _)⟩
    | flushShiftDisplay =>
      refine .inr ⟨rfl, ?_, ?_⟩
      · simp only [runCronCallback, flushShiftDisplay]
        split_ifs <;> rfl
      · simp only [runCronCallback, flushShiftDisplay]
        split_ifs with hshort
        · exact .still rfl
        · exact .shows (Nat.le_of_not_lt hshort) rfl

/-- `decode` with any other message. -/
theorem decode_rests (s : State) (hled : s.decoder.msgId ≠ msgIdLedArray) :
    (decode s).flush.shiftData = s.flush.shiftData ∧
      (((decode s).menu.state = s.menu.state ∧ (decode s).flush.drain = s.flush.drain) ∨
        ((decode s).menu.state = .tag ∧ (decode s).flush.drain = false)) := by
  have hsame : ∀ a : State, panelOf a = panelOf s → a.flush.shiftData = s.flush.shiftData ∧
      ((a.menu.state = s.menu.state ∧ a.flush.drain = s.flush.drain) ∨
        (a.menu.state = .tag ∧ a.flush.drain = false)) := fun a ha =>
    ⟨congrArg Panel.shiftData ha, .inl ⟨congrArg Panel.state ha, congrArg Panel.drain ha⟩⟩
  have hcase := decode_case s
  generalize decode s = r at hcase ⊢
  cases hcase with
  | ledArray hid => exact absurd hid hled
  | queryName hid status =>
    have hpanel := panelOf_menuParameterName (confirmed s) (inByte s.decoder 0) (inByte s.decoder 1)
    split at hpanel
    · by_cases htag : s.menu.state = .tag
      · have hstay : (panelOf (confirmed s)).setState .tag = panelOf s := if_pos htag
        exact hsame _ (hpanel.trans hstay)
      · have hopens : (panelOf (confirmed s)).setState .tag =
            { panelOf s with state := .tag, mode := .radio, drain := false } := by
          rw [Panel.setState, if_neg (show (panelOf (confirmed s)).state ≠ .tag from htag),
            if_neg (show (panelOf (confirmed s)).state ≠ .tag from htag), if_pos rfl]
          rfl
        rw [hopens] at hpanel
        exact ⟨congrArg Panel.shiftData hpanel,
          .inr ⟨congrArg Panel.state hpanel, congrArg Panel.drain hpanel⟩⟩
    · exact hsame _ hpanel
  | queryNumber hid status =>
    exact hsame _ (panelOf_menuParameterValue (confirmed s) _ _ _ _)
  | idle hid => exact hsame _ rfl
  | syncClock hid => exact hsame _ rfl
  | handshake hid =>
    have hpanel := panelOf_modeSet (confirmed s) .radio
    exact ⟨congrArg Panel.shiftData hpanel,
      .inl ⟨congrArg Panel.state hpanel, congrArg Panel.drain hpanel⟩⟩
  | unknown led name number idle clock shake => exact hsame _ rfl

theorem decode_led (s : State) (hled : s.decoder.msgId = msgIdLedArray) :
    (decode s).menu = s.menu ∧
      (decode s).flush = (flushShiftData s.flush s.decoder.inBuf (s.decoder.msgSize - 2)).1 := by
  unfold decode
  dsimp only
  rw [if_pos hled]
  exact ⟨rfl, rfl⟩

/-! ### One step of the main loop -/

theorem flushShiftData_drain (f : Flush) (arr : List Byte) (n : Byte) :
    (flushShiftData f arr n).1.drain = f.drain := by
  unfold flushShiftData
  dsimp only
  split_ifs <;> rfl

/-- The messages decoded bring no columns. -/
def NoColumns (c c' : Cpu) : Prop :=
  ∃ news, c'.state.decoder.calls = c.state.decoder.calls ++ news ∧
    ∀ m ∈ news, m.id ≠ msgIdLedArray

theorem noColumns_of_calls {c c' : Cpu}
    (h : c'.state.decoder.calls = c.state.decoder.calls) : NoColumns c c' :=
  ⟨[], by rw [h, List.append_nil], by simp⟩

theorem noColumns_of_call {c c' : Cpu} {call : Message}
    (h : c'.state.decoder.calls = c.state.decoder.calls ++ [call])
    (hled : call.id ≠ msgIdLedArray) : NoColumns c c' :=
  ⟨[call], h, fun m hm => by rwa [List.mem_singleton.mp hm]⟩

/-- What a step of the main loop leaves of the text. -/
structure Turned (c c' : Cpu) (dumps : List Buffer) : Prop where
  unfurled : Unfurled c'.state
  scrolled : Scrolls c.state.menu.state → c'.state.menu.state = c.state.menu.state →
    (Scrolled c.state.flush c'.state.flush dumps ∧ NoColumns c c') ∨
      (dumps = [] ∧ ∃ call, c'.state.decoder.calls = c.state.decoder.calls ++ [call] ∧
        call.id = msgIdLedArray)

theorem Rests.turned {c d : Cpu} (h : Rests c.state d.state) (hu : Unfurled c.state)
    (hno : NoColumns c d) : Turned c d [] := by
  rcases h with ⟨hstate, hdrain, hdata⟩ | ⟨hstate, hdrain, hdata⟩
  · refine ⟨?_, fun _ _ => .inl ⟨.still hdata, hno⟩⟩
    unfold Unfurled
    rwa [hstate, hdrain]
  · refine ⟨fun _ => hdrain, fun _ hsame => .inl ⟨.still (hdata ?_), hno⟩⟩
    rw [← hsame, hstate]
    decide

theorem outside_idle {c : Cpu} (hpc : c.pc = .idle) (f : State → State) :
    outside c f = { c with state := f c.state } := if_pos hpc

theorem outside_busy {c : Cpu} (hpc : c.pc ≠ .idle) (f : State → State) : outside c f = c :=
  if_neg hpc

theorem cronTry_turned {c : Cpu} (hu : Unfurled c.state) :
    Turned c (mainStep c .cronTry) (dumped c .cronTry) := by
  by_cases hpc : c.pc = .idle
  · have hstep : mainStep c .cronTry = { c with state := cronTry c.state } := outside_idle hpc _
    have hno : NoColumns c { c with state := cronTry c.state } :=
      noColumns_of_calls (congrArg Decoder.calls (quiet_cronTry c.state).decoder)
    rw [hstep]
    rcases cronTry_cases hpc with ⟨hdumped, hrests⟩ | ⟨hmenu, hdrain, hscrolled⟩
    · rw [hdumped]
      exact Rests.turned (c := c) (d := { c with state := cronTry c.state }) hrests hu hno
    · refine ⟨?_, fun _ _ => .inl ⟨hscrolled, hno⟩⟩
      unfold Unfurled
      rwa [hmenu, hdrain]
  · have hstep : mainStep c .cronTry = c := outside_busy hpc _
    have hdumped : dumped c .cronTry = [] := if_neg hpc
    rw [hstep, hdumped]
    exact (Rests.refl c.state).turned hu (noColumns_of_calls rfl)

theorem rotor_turned {c : Cpu} (hu : Unfurled c.state) (id action : Byte) :
    Turned c (mainStep c (.rotor id action)) [] := by
  by_cases hpc : c.pc = .idle
  · have hstep : mainStep c (.rotor id action) =
        { c with state := menuHandleRotor c.state id action } :=
      outside_idle hpc fun s => menuHandleRotor s id action
    obtain ⟨hidle, htag⟩ := rotorToState_open id
    have hpanel := panelOf_menuHandleRotor c.state id action
    have hopen : ¬ Scrolls (rotorToState id) := not_or.mpr ⟨hidle, htag⟩
    rw [hstep]
    rcases Panel.rotor_cases (panelOf c.state) hidle htag with he | ⟨hni, hnt, he⟩ | ⟨backup, he⟩
    · exact Rests.turned (c := c) (d := { c with state := menuHandleRotor c.state id action })
        (rests_of_panel (hpanel.trans he) rfl rfl rfl) hu
        (noColumns_of_calls
          (congrArg Decoder.calls (quiet_menuHandleRotor c.state id action).decoder))
    · refine ⟨fun hscrolls => ?_, fun hscrolls => absurd hscrolls (not_or.mpr ⟨hni, hnt⟩)⟩
      have hstate := congrArg Panel.state (hpanel.trans he)
      exact absurd ((congrArg Scrolls hstate).mp hscrolls) hopen
    · have hstate := congrArg Panel.state (hpanel.trans he)
      refine ⟨fun hscrolls => absurd ((congrArg Scrolls hstate).mp hscrolls) hopen,
        fun hscrolls hsame => ?_⟩
      rw [← hsame] at hscrolls
      exact absurd ((congrArg Scrolls hstate).mp hscrolls) hopen
  · have hstep : mainStep c (.rotor id action) = c :=
      outside_busy hpc fun s => menuHandleRotor s id action
    rw [hstep]
    exact (Rests.refl c.state).turned hu (noColumns_of_calls rfl)

theorem decodeStep_turned {c : Cpu} (hv : c.state.link.readBuf.Valid) (hu : Unfurled c.state) :
    Turned c (mainStep c .decodeStep) [] := by
  have hdone : ∀ s : State, s.flush = c.state.flush → s.menu = c.state.menu →
      s.decoder.calls = c.state.decoder.calls →
      (mainStep c .decodeStep).state = decodeDone s → Turned c (mainStep c .decodeStep) [] := by
    intro s hflush hmenu hcalls hstep
    have hmenu' : (mainStep c .decodeStep).state.menu = (decode s).menu := by rw [hstep]; rfl
    have hflush' : (mainStep c .decodeStep).state.flush = (decode s).flush := by rw [hstep]; rfl
    have hcalls' : (mainStep c .decodeStep).state.decoder.calls =
        c.state.decoder.calls ++ [decodedMessage s.decoder] := by
      rw [hstep, (decodeDone_incoming s).2, ← hcalls]
      rfl
    by_cases hled : s.decoder.msgId = msgIdLedArray
    · obtain ⟨hsame, hfill⟩ := decode_led s hled
      refine ⟨?_, fun _ _ => .inr ⟨rfl, decodedMessage s.decoder, hcalls', hled⟩⟩
      unfold Unfurled
      rw [hmenu', hsame, hmenu, hflush', hfill, flushShiftData_drain, hflush]
      exact hu
    · obtain ⟨hdata, hstate⟩ := decode_rests s hled
      refine ⟨?_, fun _ _ => .inl ⟨.still ?_, noColumns_of_call hcalls' hled⟩⟩
      · unfold Unfurled
        rw [hmenu', hflush']
        rcases hstate with ⟨hstate, hdrain⟩ | ⟨-, hdrain⟩
        · rw [hstate, hdrain, hmenu, hflush]
          exact hu
        · exact fun _ => hdrain
      · rw [hflush', hdata, hflush]
  obtain ⟨readBuf, d, -, -, hcalls, hstep | ⟨-, -, hstep⟩⟩ := decodeStep_cases hv
  · exact Rests.turned (d := mainStep c .decodeStep)
      (.inl (by rw [show (mainStep c .decodeStep).state = _ from hstep]; exact ⟨rfl, rfl, rfl⟩)) hu
      (noColumns_of_calls (by
        rw [show (mainStep c .decodeStep).state = _ from hstep]
        exact hcalls))
  · exact hdone { c.state with link := { c.state.link with readBuf := readBuf }, decoder := d }
      rfl rfl hcalls hstep

theorem mainStep_turned {c : Cpu} (hv : c.state.link.readBuf.Valid) (hu : Unfurled c.state)
    (e : MainEvent) : Turned c (mainStep c e) (dumped c e) := by
  have hquiet : ∀ f : State → State, (f c.state).flush = c.state.flush →
      (f c.state).menu = c.state.menu → (f c.state).decoder = c.state.decoder →
      Turned c (outside c f) [] := by
    intro f hflush hmenu hdecoder
    by_cases hpc : c.pc = .idle
    · rw [outside_idle hpc]
      refine Rests.turned (c := c) (d := { c with state := f c.state }) (.inl ?_) hu
        (noColumns_of_calls (congrArg Decoder.calls hdecoder))
      rw [show (f c.state).menu = _ from hmenu, show (f c.state).flush = _ from hflush]
      exact ⟨rfl, rfl, rfl⟩
    · rw [outside_busy hpc]
      exact (Rests.refl c.state).turned hu (noColumns_of_calls rfl)
  cases e with
  | decodeStep => exact decodeStep_turned hv hu
  | postponeTry => exact hquiet _ rfl rfl rfl
  | cronTry => exact cronTry_turned hu
  | counterTry =>
    exact hquiet (fun s => { s with timers := interruptFunction s.timers }) rfl rfl rfl
  | rotor id action => exact rotor_turned hu id action
  | int2 =>
    have hrests : Rests c.state (mainStep c .int2).state := .inl ⟨rfl, rfl, rfl⟩
    exact hrests.turned hu (noColumns_of_calls rfl)

end LedServer.Avr
