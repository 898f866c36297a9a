import LedServer.ModeConnected

set_option autoImplicit false

/-!
# What the AVR tells the Pi

Of the messages a step puts into `write_buf`, those that matter to a purpose are
picked out; most functions of `menu.c` send none of them.
-/
namespace LedServer.Avr
open AvrRing

variable {p : Message → Bool}

/-- Only a STATUS is ever postponed. -/
def HoldsStatus (held : Option Message) : Prop := ∀ m ∈ held, m.id = msgIdStatus

/-- From `l` to `l'`, the messages put into `write_buf` that `p` picks are `told`. -/
def Tells (p : Message → Bool) (l l' : Link) (told : List Message) : Prop :=
  ∀ sent held, Flows l sent held → HoldsStatus held → ∃ out held', out.filter p = told ∧
    Flows l' (sent ++ out) held' ∧ HoldsStatus held'

theorem Tells.refl (l : Link) : Tells p l l [] := by
  intro sent held hf hs
  exact ⟨[], held, rfl, by rwa [List.append_nil], hs⟩

theorem Tells.trans {l₁ l₂ l₃ : Link} {told told' : List Message} (h : Tells p l₁ l₂ told)
    (h' : Tells p l₂ l₃ told') : Tells p l₁ l₃ (told ++ told') := by
  intro sent held hf hs
  obtain ⟨out, held', hout, hf', hs'⟩ := h sent held hf hs
  obtain ⟨out', held'', hout', hf'', hs''⟩ := h' _ held' hf' hs'
  refine ⟨out ++ out', held'', ?_, ?_, hs''⟩
  · rw [List.filter_append, hout, hout']
  · rwa [← List.append_assoc]

/-- Nothing, then something. -/
theorem Tells.after {l₁ l₂ l₃ : Link} {told : List Message} (h' : Tells p l₂ l₃ told)
    (h : Tells p l₁ l₂ []) : Tells p l₁ l₃ told := h.trans h'

/-- Something, then nothing. -/
theorem Tells.before {l₁ l₂ l₃ : Link} {told : List Message} (h : Tells p l₁ l₂ told)
    (h' : Tells p l₂ l₃ []) : Tells p l₁ l₃ told := by
  have hall := h.trans h'
  rwa [List.append_nil] at hall

theorem Tells.of_eq {l l' : Link} (h : l' = l) : Tells p l l' [] := by
  rw [h]
  exact .refl l

theorem tells_ite {c : Prop} [Decidable c] {l : Link} {a b : State} {told : List Message}
    (ha : Tells p l a.link told) (hb : Tells p l b.link told) :
    Tells p l (if c then a else b).link told := by
  split
  · exact ha
  · exact hb

theorem tells_ite_fst {c : Prop} [Decidable c] {α : Type} {l : Link} {a b : State × α}
    {told : List Message} (ha : Tells p l a.1.link told) (hb : Tells p l b.1.link told) :
    Tells p l (if c then a else b).1.link told := by
  split
  · exact ha
  · exact hb

theorem tells_pins (l : Link) (irq confirm : Bool) :
    Tells p l { l with irq := irq, confirm := confirm } [] := by
  intro sent held hf hs
  have hslot := hf.slot
  refine ⟨[], held, rfl, ?_, hs⟩
  rw [List.append_nil]
  refine ⟨hf.readValid, hf.writeValid, hf.room, hf.written, hf.small, ?_⟩
  cases held <;> exact hslot

/-! ### `encode_msg` -/

/-- A message of `send_message_k` is on its way if the Pi is connected and
`write_buf` has space. -/
def spoken (s : State) (m : Message) : List Message :=
  if s.isConnected = true ∧ isWritable s.link = true then [m] else []

/-- A message with the serial to ignore. -/
theorem tells_postpone (l : Link) {m : Message} (hz : m.serial = serialIdToIgnore)
    (hm : m.payload.length ≤ 8) :
    Tells p l (postponeMessage l m.frame m.serial)
      ((if isWritable l = true then [m] else []).filter p) := by
  intro sent held hf hs
  by_cases hw : isWritable l = true
  · rw [if_pos hw]
    exact ⟨[m], held, rfl, (postpone_written hf hz hm hw).1, hs⟩
  · have hw' : ¬ isWritable { l with created := l.created ++ [m.frame] } = true := hw
    have heq : postponeMessage l m.frame m.serial =
        { l with created := l.created ++ [m.frame] } := by
      rw [postponeMessage, if_pos hz, if_neg hw']
    rw [if_neg hw, heq]
    refine ⟨[], held, rfl, ?_, hs⟩
    rw [List.append_nil]
    exact hf.made m.frame

/-- `send_message_k`. -/
theorem tells_send (s : State) {m : Message} (hz : m.serial = serialIdToIgnore)
    (hm : m.payload.length ≤ 8) :
    Tells p s.link
      (if s.isConnected then { s with link := postponeMessage s.link m.frame m.serial } else s).link
      ((spoken s m).filter p) := by
  unfold spoken
  by_cases hc : s.isConnected = true
  · rw [if_pos hc]
    simp only [hc, true_and]
    exact tells_postpone s.link hz hm
  · rw [if_neg hc, if_neg fun h => hc h.1]
    exact .refl s.link

theorem tells_send_silent (s : State) {m : Message} (hz : m.serial = serialIdToIgnore)
    (hm : m.payload.length ≤ 8) (hp : p m = false) :
    Tells p s.link
      (if s.isConnected then { s with link := postponeMessage s.link m.frame m.serial } else s).link
      [] := by
  have h := tells_send (p := p) s hz hm
  have hnone : (spoken s m).filter p = [] := by
    unfold spoken
    split <;> simp [hp]
  rwa [hnone] at h

theorem tells_sendMessage0 (s : State) (msgId : Byte) :
    Tells p s.link (sendMessage0 s msgId).link
      ((spoken s ⟨serialIdToIgnore, msgId, []⟩).filter p) :=
  tells_send s (m := ⟨serialIdToIgnore, msgId, []⟩) rfl (by simp)

theorem tells_sendMessage1 (s : State) (msgId a : Byte)
    (hp : ∀ m : Message, m.id = msgId → p m = false) :
    Tells p s.link (sendMessage1 s msgId a).link [] :=
  tells_send_silent s (m := ⟨serialIdToIgnore, msgId, [a]⟩) rfl (by simp) (hp _ rfl)

theorem tells_sendMessage2 (s : State) (msgId a b : Byte)
    (hp : ∀ m : Message, m.id = msgId → p m = false) :
    Tells p s.link (sendMessage2 s msgId a b).link [] :=
  tells_send_silent s (m := ⟨serialIdToIgnore, msgId, [a, b]⟩) rfl (by simp) (hp _ rfl)

/-- PARAM_SET. -/
def paramSetMessage (parameter sign abs : Byte) : Message :=
  ⟨serialIdToIgnore, msgIdParamSet, [parameter, sign, abs]⟩

theorem tells_sendMessage3 (s : State) (parameter sign abs : Byte) :
    Tells p s.link (sendMessage3 s parameter sign abs).link
      ((spoken s (paramSetMessage parameter sign abs)).filter p) :=
  tells_send s (m := paramSetMessage parameter sign abs) rfl (by simp [paramSetMessage])

/-! ### Functions that tell nothing -/

theorem tells_modeSet (s : State) (m : Mode) : Tells p s.link (modeSet s m).link [] :=
  .of_eq (modeSet_link s m)

theorem tells_schedule (s : State) (delay : Byte) : Tells p s.link (schedule s delay).link [] :=
  .refl _

theorem tells_querySource (s : State) (hp : ∀ m : Message, m.id = msgIdQueryNumber → p m = false) :
    Tells p s.link (querySource s).link [] := by
  unfold querySource
  refine tells_ite (.refl _) (tells_ite (.refl _) ?_)
  exact tells_sendMessage1 s msgIdQueryNumber _ hp

theorem tells_scheduleTag (s : State) : Tells p s.link (scheduleTag s).link [] := by
  unfold scheduleTag
  exact tells_ite (.refl _) (tells_ite (.refl _) (.refl _))

theorem tells_tagRequest (s : State) (hp : ∀ m : Message, m.id = msgIdQueryName → p m = false) :
    Tells p s.link (tagRequest s).link [] := by
  unfold tagRequest
  refine tells_ite (.refl _) (tells_ite (.refl _) (tells_ite (.refl _) ?_))
  exact tells_sendMessage2 s msgIdQueryName _ _ hp

theorem tells_turnSame (s : State) (id action : Byte)
    (hp : ∀ m : Message, m.id = msgIdQueryNumber → p m = false) :
    Tells p s.link (turnSame s id action).link [] := by
  have hselect : ∀ a : State, Tells p s.link a.link [] →
      Tells p s.link (scheduleTag { a with menu := selectValue a.menu action }).link [] :=
    fun a h => h.before (tells_scheduleTag { a with menu := selectValue a.menu action })
  unfold turnSame
  cases s.menu.state with
  | value =>
    apply hselect
    apply tells_ite _ (.refl _)
    exact tells_querySource { s with
      menu := { s.menu with paramId := rotorToParam s.isConnected id } } hp
  | _ => exact .refl _

theorem tells_turnOther (s : State) (id action : Byte)
    (hp : ∀ m : Message, m.id = msgIdQueryNumber → p m = false) :
    Tells p s.link (turnOther s id action).link [] := by
  unfold turnOther
  cases rotorToState id with
  | apply => exact .refl _
  | param => exact .refl _
  | _ =>
    exact tells_querySource { s with
      menu := selectValue { s.menu with paramId := rotorToParam s.isConnected id } action } hp

theorem tells_heartbeatVerify (s : State) : Tells p s.link (heartbeatVerify s).link [] := by
  have hrun : ∀ (s : State) (cb : Option HeartbeatCallback),
      Tells p s.link (runHeartbeatCallback s cb).link [] := by
    intro s cb
    match cb with
    | none => exact .refl _
    | some .switchToWatch => exact tells_modeSet s .watch
    | some .spiInterruptStart => exact tells_pins s.link true s.link.confirm
  unfold heartbeatVerify
  refine tells_ite ?_ (tells_ite ?_ (.refl _))
  · exact hrun (heartbeatCancel { s with
      heartbeat := { s.heartbeat with currentMisses := s.heartbeat.currentMisses + 1 } }) _
  · exact hrun { s with
      heartbeat := { s.heartbeat with currentMisses := s.heartbeat.currentMisses + 1 } } _

/-- The answer goes to the slot, or out if its serial is the one to ignore. -/
theorem tells_reply (s : State) (status msgId : Byte)
    (hp : ∀ m : Message, m.id = msgIdStatus → p m = false) :
    Tells p s.link (reply s status msgId).link [] := by
  let m : Message := ⟨s.decoder.msgSerial, msgIdStatus, [status, msgId]⟩
  have hsmall : m.payload.length ≤ 8 := by simp [m]
  have hlink : (reply s status msgId).link = postponeMessage s.link m.frame m.serial := rfl
  rw [hlink]
  by_cases hz : m.serial = serialIdToIgnore
  · have h := tells_postpone (p := p) s.link hz hsmall
    have hnone : (if isWritable s.link = true then [m] else []).filter p = [] := by
      split <;> simp [hp m rfl]
    rwa [hnone] at h
  · intro sent held hf hs
    cases held with
    | none =>
      have hstatus : HoldsStatus (some m) := by
        intro k hk
        rw [← Option.some.inj hk]
      refine ⟨[], some m, rfl, ?_, hstatus⟩
      rw [List.append_nil]
      exact (postpone_reply hf hz hsmall).1
    | some k =>
      refine ⟨[], some k, rfl, ?_, hs⟩
      rw [List.append_nil]
      exact (postpone_taken hf hz).1

theorem tells_postponeTry (s : State) (hp : ∀ m : Message, m.id = msgIdStatus → p m = false) :
    Tells p s.link (postponeTryState s).link [] := by
  intro sent held hf hs
  rcases postponeTry_flows hf (flushShiftBufferSpace s.flush) with he | ⟨m, rfl, -, hf', -⟩
  · refine ⟨[], held, rfl, ?_, hs⟩
    rw [List.append_nil, postponeTryState, he]
    exact hf
  · have hstatus : m.id = msgIdStatus := hs m rfl
    exact ⟨[m], none, by simp [hp m hstatus], hf', by simp [HoldsStatus]⟩

theorem tells_exchange (s : State) (received : Byte) :
    Tells p s.link (spiStcVect s.link received) [] := by
  intro sent held hf hs
  obtain ⟨-, hf', -⟩ := spiStcVect_flows hf received
  exact ⟨[], held, rfl, by rwa [List.append_nil], hs⟩

end LedServer.Avr
