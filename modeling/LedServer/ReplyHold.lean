import LedServer.AvrDecodeFlow
import LedServer.MenuMode

set_option autoImplicit false

/-!
# The reply that waits for space in `shift_data`

The Pi sends nothing while its last message is unanswered, and `postpone_try`
keeps the answer until `shift_data` has `ENOUGH_SPACE` bytes free. Only
`flush_shift_display` and `flush_shift_drain_start` make space there.
-/
namespace LedServer.Avr
open AvrRing Machine

/-- A reply is in the slot and `shift_data` has no space for the next message. -/
def Waits (s : State) : Prop :=
  s.link.postponedSize ≠ 0 ∧ flushShiftBufferSpace s.flush < enoughSpace

instance (s : State) : Decidable (Waits s) := inferInstanceAs (Decidable (_ ∧ _))

/-- A waiting reply is one that the flush cron will let go. -/
def Served (s : State) : Prop :=
  Waits s →
    s.currentMode = .radio ∧ s.timers.callbackArray .idFlush = some .flushShiftDisplay

/-- The decoder once `decode_try` has read the header and the payload of `m`. -/
def arrive (d : Decoder) (m : Message) : Decoder :=
  { d with
    msgSize := BitVec.ofNat 8 (m.payload.length + 2)
    msgSerial := m.serial
    msgId := m.id
    inBuf := m.payload ++ d.inBuf.drop m.payload.length }

def receive (s : State) (m : Message) : State :=
  decodeDone { s with decoder := arrive s.decoder m }

inductive HoldEvent where
  | message (m : Message) (fits : m.payload.length ≤ inSize)
  | exchange (received : Byte)
  | postponeTry
  | rotor (id action : Byte)
  | expire (id : AtId)
  | flushTick
  | heartbeatTick
  | int2
  | int3

/-- A tick reaches the function its cron entry is enabled with, if any. -/
def holdStep (s : State) : HoldEvent → State
  | .message m _ => receive s m
  | .exchange received => { s with link := spiStcVect s.link received }
  | .postponeTry => postponeTryState s
  | .rotor id action => menuHandleRotor s id action
  | .expire id => atExpire s id
  | .flushTick =>
    if s.timers.callbackArray .idFlush = some .flushShiftDisplay then
      { s with flush := flushShiftDisplay s.flush }
    else s
  | .heartbeatTick =>
    if s.timers.callbackArray .idHeartbeat = some .heartbeatVerify then heartbeatVerify s else s
  | .int2 => { s with twi := int2Vect s.twi }
  | .int3 => int3Vect s

/-! ### When a step leaves no reply behind -/

/-- A name that arrives in time opens the picture of it in radio mode. -/
def OpensTag (s : State) (m : Message) : Prop :=
  m.id = msgIdQueryName ∧
    NameMatches s.menu (inByte (arrive s.decoder m) 0) (inByte (arrive s.decoder m) 1) ∧
    s.menu.state ≠ .tag

instance (s : State) (m : Message) : Decidable (OpensTag s m) :=
  inferInstanceAs (Decidable (_ ∧ _))

/-- The bytes of `m` that go to `shift_data`. -/
def columnsOf (s : State) (m : Message) : ℕ :=
  if m.id = msgIdLedArray ∧ s.flush.drain = false then m.payload.length else 0

/-- The space left is `ENOUGH_SPACE`, also when the buffer has been filled to
capacity behind a positive start and so reports that it is empty. -/
def Roomy (s : State) (m : Message) : Prop :=
  s.flush.shiftData.count + columnsOf s m ≤ 229 ∨
    (s.flush.shiftData.count + columnsOf s m = 255 ∧ 0 < s.flush.shiftData.start ∧
      0 < columnsOf s m)

instance (s : State) (m : Message) : Decidable (Roomy s m) := inferInstanceAs (Decidable (_ ∨ _))

/-- What each step has to meet. The heartbeat is not lost and the timer of a
menu that is closed does not run out while a reply waits, and no message that
leaves a reply waiting is answered outside radio mode. -/
def LetsGo (s : State) : HoldEvent → Prop
  | .message m _ => s.currentMode ≠ .radio → Answered m → ¬ OpensTag s m →
      s.link.postponedSize ≠ 0 ∨ m.serial ≠ serialIdToIgnore → Roomy s m
  | .expire id => id = .menu ∧ s.timers.callback .menu ≠ none ∧ s.menu.state = .idle → ¬ Waits s
  | .heartbeatTick => s.timers.callbackArray .idHeartbeat = some .heartbeatVerify ∧
      Loses s.heartbeat → ¬ Waits s
  | _ => True

instance (s : State) (e : HoldEvent) : Decidable (LetsGo s e) := by
  cases e <;> unfold LetsGo <;> infer_instance

/-! ### The invariant -/

/-- An open menu other than the picture of a name drains `shift_data`, which is
then empty; a closed one keeps no mode to go back to. -/
structure Panel.Sound (p : Panel) : Prop where
  valid : p.shiftData.Valid
  drained : p.drain = true → p.shiftData.count = 0
  drains : p.state ≠ .idle → p.state ≠ .tag → p.drain = true
  closed : p.state = .idle → p.backup = .menu

/-- `Waits`, on the panel. -/
def Panel.Short (p : Panel) : Prop := bufferSpace p.shiftData < enoughSpace

structure HoldSound (s : State) : Prop where
  wired : Wired s
  panel : (panelOf s).Sound

theorem waits_iff (s : State) : Waits s ↔ s.link.postponedSize ≠ 0 ∧ (panelOf s).Short := Iff.rfl

namespace Panel

variable {p : Panel}

theorem short_iff (h : p.shiftData.Valid) : p.Short ↔ 229 < p.shiftData.count := by
  have hspace := bufferSpace_toNat h
  have hcount := buffer_count_le h
  have h26 : enoughSpace.toNat = 26 := rfl
  unfold Short
  rw [BitVec.lt_def, hspace, h26]
  omega

theorem Sound.not_short_of_drain (h : p.Sound) (hd : p.drain = true) : ¬ p.Short := by
  rw [short_iff h.valid, h.drained hd]
  omega

theorem clear_count (b : Buffer) : (bufferClear b).count = 0 := by
  rw [← contents_length]
  exact congrArg List.length (ringClear_contents b)

/-- A knob does nothing, goes to another state of the open menu, or opens the
menu with `shift_data` cleared. -/
theorem rotor_cases (p : Panel) {new : MenuState} (hi : new ≠ .idle) (ht : new ≠ .tag) :
    p.rotor new = p ∨
      (p.state ≠ .idle ∧ p.state ≠ .tag ∧ p.rotor new = { p with state := new }) ∨
      ∃ backup, p.rotor new = ⟨new, .menu, backup, true, bufferClear p.shiftData⟩ := by
  obtain ⟨state, mode, backup, drain, shiftData⟩ := p
  cases state <;> cases new <;> simp_all [rotor, start, setState]

theorem Sound.rotor (h : p.Sound) {new : MenuState} (hi : new ≠ .idle) (ht : new ≠ .tag) :
    (p.rotor new).Sound ∧ ((p.rotor new).Short → p.Short ∧ (p.rotor new).mode = p.mode) := by
  rcases rotor_cases p hi ht with he | ⟨hni, hnt, he⟩ | ⟨backup, he⟩
  · rw [he]
    exact ⟨h, fun hs => ⟨hs, rfl⟩⟩
  · rw [he]
    exact ⟨⟨h.valid, h.drained, fun _ _ => h.drains hni hnt, fun hn => absurd hn hi⟩,
      fun hs => ⟨hs, rfl⟩⟩
  · rw [he]
    have hsound : Sound ⟨new, .menu, backup, true, bufferClear p.shiftData⟩ :=
      ⟨bufferClear_valid _, fun _ => clear_count _, fun _ _ => rfl, fun hn => absurd hn hi⟩
    exact ⟨hsound, fun hs => absurd hs (hsound.not_short_of_drain rfl)⟩

theorem Sound.setState_tag (h : p.Sound) :
    (p.setState .tag).Sound ∧ (p.setState .tag).shiftData = p.shiftData ∧
      (p.state ≠ .tag → (p.setState .tag).mode = .radio) := by
  unfold setState
  by_cases htag : p.state = .tag
  · rw [if_pos htag]
    exact ⟨h, rfl, fun hn => absurd htag hn⟩
  · rw [if_neg htag, if_neg htag, if_pos rfl]
    exact ⟨⟨h.valid, fun hd => absurd hd (by simp), fun _ hn => absurd rfl hn,
      fun hn => absurd hn (by simp)⟩, rfl, fun _ => rfl⟩

/-- Closing an open menu leaves no shortage. -/
theorem Sound.stop (h : p.Sound) :
    p.stop.Sound ∧ (p.stop.Short ↔ p.state = .idle ∧ p.Short) ∧
      (p.state = .idle → p.stop.mode = .menu) := by
  have hvalid : p.stop.shiftData.Valid := by
    unfold Panel.stop
    dsimp only
    split_ifs
    · exact bufferClear_valid _
    · exact h.valid
  refine ⟨⟨hvalid, fun hd => absurd hd (by simp [Panel.stop]), fun hn => absurd rfl hn,
    fun _ => rfl⟩, ?_, h.closed⟩
  by_cases htag : p.state = .tag
  · have hclear : p.stop.shiftData = bufferClear p.shiftData := if_pos htag
    rw [short_iff hvalid, hclear, clear_count, htag]
    simp
  · have hsame : p.stop.shiftData = p.shiftData := if_neg htag
    rw [short_iff hvalid, hsame, short_iff h.valid]
    refine ⟨fun hs => ⟨?_, hs⟩, And.right⟩
    by_contra hidle
    rw [h.drained (h.drains hidle htag)] at hs
    omega

theorem Sound.mode (h : p.Sound) (m : Mode) : Sound { p with mode := m } :=
  ⟨h.valid, h.drained, h.drains, h.closed⟩

theorem Sound.shiftData (h : p.Sound) {b : Buffer} (hv : b.Valid)
    (hd : p.drain = true → b = p.shiftData) : Sound { p with shiftData := b } :=
  ⟨hv, fun hdrain => by rw [hd hdrain]; exact h.drained hdrain, h.drains, h.closed⟩

end Panel

/-! ### `decode` -/

theorem reply_slot (s : State) (status msgId : Byte) :
    (reply s status msgId).link.postponedSize ≠ 0 ↔
      s.link.postponedSize ≠ 0 ∨ s.decoder.msgSerial ≠ serialIdToIgnore := by
  rw [reply_link]
  by_cases hz : s.decoder.msgSerial = serialIdToIgnore
  · rw [hz, postponeMessage_slot]
    simp
  · unfold postponeMessage
    rw [if_neg hz]
    by_cases hfree : s.link.postponedSize ≠ 0
    · rw [if_pos hfree]
      exact iff_of_true hfree (.inl hfree)
    · rw [if_neg hfree]
      exact iff_of_true (by simp [Message.frame_length]) (.inr hz)

/-- The slot is taken after a message if it was before or the answer goes there. -/
theorem receive_slot (s : State) (m : Message) :
    (receive s m).link.postponedSize ≠ 0 ↔
      s.link.postponedSize ≠ 0 ∨ (Answered m ∧ m.serial ≠ serialIdToIgnore) := by
  have hdone : (receive s m).link = (decode { s with decoder := arrive s.decoder m }).link := rfl
  have hanswer : ∀ a : State, LinkQuiet s.link a.link → a.decoder.msgSerial = m.serial →
      Answered m → ∀ status msgId, (reply a status msgId).link.postponedSize ≠ 0 ↔
        s.link.postponedSize ≠ 0 ∨ (Answered m ∧ m.serial ≠ serialIdToIgnore) := by
    intro a hl hserial ha status msgId
    rw [reply_slot, hl.slot, hserial]
    simp [ha]
  rw [hdone]
  obtain ⟨a, hd, hl, -, ⟨hled, -, he⟩ | ⟨-, -, ⟨hid, he⟩ | ⟨hidle, hshake, status, he⟩⟩⟩ :=
    decode_spec { s with decoder := arrive s.decoder m }
  · have hid : m.id = msgIdLedArray := hled
    rw [he]
    exact hanswer a hl (by rw [hd]; rfl) (by unfold Answered; rw [hid]; decide) _ _
  · have hsilent : ¬ Answered m := fun ha => hid.elim ha.1 ha.2
    rw [he, hl.slot]
    simp [hsilent]
  · rw [he]
    exact hanswer a hl (by rw [hd]; rfl) ⟨hidle, hshake⟩ _ _

theorem panelOf_receive (s : State) (m : Message) :
    panelOf (receive s m) =
      if m.id = msgIdLedArray then
        { panelOf s with
          shiftData := (flushShiftData s.flush (arrive s.decoder m).inBuf
            ((arrive s.decoder m).msgSize - 2)).1.shiftData }
      else if m.id = msgIdQueryName ∧
          NameMatches s.menu (inByte (arrive s.decoder m) 0) (inByte (arrive s.decoder m) 1) then
        (panelOf s).setState .tag
      else if m.id = msgIdHandshake then { panelOf s with mode := .radio }
      else panelOf s := by
  have hdone : panelOf (receive s m) = panelOf (decode { s with decoder := arrive s.decoder m }) :=
    rfl
  have hreply : ∀ (a : State) (status msgId : Byte), panelOf (reply a status msgId) = panelOf a :=
    fun _ _ _ => rfl
  have hother : ∀ {id id' : Byte}, (arrive s.decoder m).msgId = id → id ≠ id' → ¬ m.id = id' := by
    rintro id id' rfl hne
    exact hne
  have hcase := decode_case { s with decoder := arrive s.decoder m }
  rw [hdone]
  generalize decode { s with decoder := arrive s.decoder m } = r at hcase ⊢
  cases hcase with
  | ledArray hid =>
    rw [if_pos (show m.id = msgIdLedArray from hid), hreply]
    unfold flushShiftData
    dsimp only
    split_ifs <;> rfl
  | queryName hid status =>
    have hname : m.id = msgIdQueryName := hid
    rw [if_neg (hother hid (by decide)), hreply, panelOf_menuParameterName,
      if_neg (hother hid (by decide))]
    simp only [hname, true_and]
    rfl
  | queryNumber hid status =>
    rw [if_neg (hother hid (by decide)), if_neg fun h => hother hid (by decide) h.1,
      if_neg (hother hid (by decide)), hreply, panelOf_menuParameterValue]
    rfl
  | idle hid =>
    rw [if_neg (hother hid (by decide)), if_neg fun h => hother hid (by decide) h.1,
      if_neg (hother hid (by decide))]
    rfl
  | syncClock hid =>
    rw [if_neg (hother hid (by decide)), if_neg fun h => hother hid (by decide) h.1,
      if_neg (hother hid (by decide)), hreply]
    rfl
  | handshake hid =>
    rw [if_neg (hother hid (by decide)), if_neg fun h => hother hid (by decide) h.1,
      if_pos (show m.id = msgIdHandshake from hid), panelOf_modeSet]
    rfl
  | unknown led name number idle clock shake =>
    rw [if_neg (show ¬ m.id = msgIdLedArray from led), if_neg fun h => name h.1,
      if_neg (show ¬ m.id = msgIdHandshake from shake), hreply]
    rfl

/-- The space an LED_ARRAY leaves, read off the state before it. -/
theorem shift_short_iff {s : State} (h : (panelOf s).Sound) {m : Message}
    (fits : m.payload.length ≤ inSize) (hled : m.id = msgIdLedArray) :
    Panel.Sound { panelOf s with
        shiftData := (flushShiftData s.flush (arrive s.decoder m).inBuf
          ((arrive s.decoder m).msgSize - 2)).1.shiftData } ∧
      (Panel.Short { panelOf s with
          shiftData := (flushShiftData s.flush (arrive s.decoder m).inBuf
            ((arrive s.decoder m).msgSize - 2)).1.shiftData } ↔ ¬ Roomy s m) := by
  have hsize : (arrive s.decoder m).msgSize - 2 = BitVec.ofNat 8 m.payload.length := by
    unfold inSize at fits
    unfold arrive
    bv_omega
  have hlength : (BitVec.ofNat 8 m.payload.length).toNat = m.payload.length := by
    unfold inSize at fits
    bv_omega
  have hvalid : s.flush.shiftData.Valid := h.valid
  have hcount := buffer_count_le hvalid
  rw [hsize]
  by_cases hdrain : s.flush.drain = true
  · have hsame : (flushShiftData s.flush (arrive s.decoder m).inBuf
        (BitVec.ofNat 8 m.payload.length)).1.shiftData = s.flush.shiftData := by
      rw [flushShiftData, if_pos hdrain]
    have hnone : columnsOf s m = 0 := if_neg (by simp [hdrain])
    rw [hsame]
    refine ⟨h, ?_⟩
    rw [Roomy, hnone]
    refine (Panel.short_iff hvalid).trans ?_
    dsimp only
    omega
  · have hfill : (flushShiftData s.flush (arrive s.decoder m).inBuf
        (BitVec.ofNat 8 m.payload.length)).1.shiftData =
        (bufferArrayFill s.flush.shiftData m.payload (BitVec.ofNat 8 m.payload.length)).1 := by
      rw [flushShiftData, if_neg hdrain, bufferArrayFill_take, hlength]
      simp only [arrive, List.take_left]
    have hall : columnsOf s m = m.payload.length := if_pos ⟨hled, by simpa using hdrain⟩
    have hfilled := bufferArrayFill_valid hvalid m.payload (BitVec.ofNat 8 m.payload.length)
    have hafter := bufferArrayFill_count hvalid m.payload (by unfold inSize at fits; omega)
    have hstart : 0 < s.flush.shiftData.start ↔ 0 < s.flush.shiftData.start.toNat := by
      rw [BitVec.lt_def]
      rfl
    unfold inSize at fits
    rw [hfill]
    refine ⟨h.shiftData hfilled fun hd => absurd hd hdrain, ?_⟩
    rw [Panel.short_iff hfilled, hafter, Roomy, hall, hstart]
    split_ifs <;> omega

theorem roomy_other {s : State} (h : (panelOf s).Sound) {m : Message} (hled : m.id ≠ msgIdLedArray) :
    (panelOf s).Short ↔ ¬ Roomy s m := by
  have hnone : columnsOf s m = 0 := if_neg fun hm => hled hm.1
  rw [Roomy, hnone]
  refine (Panel.short_iff h.valid).trans ?_
  simp only [panelOf]
  omega

/-- After a message the mode is radio, or what it was with the space as read off
before. -/
theorem receive_panel {s : State} (h : (panelOf s).Sound) {m : Message}
    (fits : m.payload.length ≤ inSize) :
    (panelOf (receive s m)).Sound ∧
      ((OpensTag s m ∨ m.id = msgIdHandshake) ∧ (receive s m).currentMode = .radio ∨
        ¬ OpensTag s m ∧ m.id ≠ msgIdHandshake ∧
          (receive s m).currentMode = s.currentMode ∧
          ((panelOf (receive s m)).Short ↔ ¬ Roomy s m)) := by
  have hmode : ∀ {p : Panel}, panelOf (receive s m) = p → (receive s m).currentMode = p.mode := by
    rintro p rfl
    rfl
  have hpanel := panelOf_receive s m
  by_cases hled : m.id = msgIdLedArray
  · rw [if_pos hled] at hpanel
    obtain ⟨hsound, hshort⟩ := shift_short_iff h fits hled
    rw [hpanel]
    refine ⟨hsound, .inr ⟨fun ho => ?_, by rw [hled]; decide, hmode hpanel, hshort⟩⟩
    have hid := ho.1
    rw [hled] at hid
    exact absurd hid (by decide)
  rw [if_neg hled] at hpanel
  by_cases hname : m.id = msgIdQueryName ∧
      NameMatches s.menu (inByte (arrive s.decoder m) 0) (inByte (arrive s.decoder m) 1)
  · rw [if_pos hname] at hpanel
    obtain ⟨hsound, hshift, hradio⟩ := h.setState_tag
    rw [hpanel]
    refine ⟨hsound, ?_⟩
    by_cases htag : s.menu.state = .tag
    · have hstay : (panelOf s).setState .tag = panelOf s := if_pos htag
      rw [hstay] at hpanel ⊢
      exact .inr ⟨fun ho => ho.2.2 htag, by rw [hname.1]; decide, hmode hpanel, roomy_other h hled⟩
    · exact .inl ⟨.inl ⟨hname.1, hname.2, htag⟩, (hmode hpanel).trans (hradio htag)⟩
  rw [if_neg hname] at hpanel
  by_cases hshake : m.id = msgIdHandshake
  · rw [if_pos hshake] at hpanel
    rw [hpanel]
    exact ⟨h.mode .radio, .inl ⟨.inr hshake, hmode hpanel⟩⟩
  · rw [if_neg hshake] at hpanel
    rw [hpanel]
    exact ⟨h, .inr ⟨fun ho => hname ⟨ho.1, ho.2.1⟩, hshake, hmode hpanel, roomy_other h hled⟩⟩

theorem receive_wired {s : State} (h : Wired s) (m : Message) : Wired (receive s m) := by
  have harrive : Wired { s with decoder := arrive s.decoder m } := h.of_eq rfl
  have hdone : Wired (decode { s with decoder := arrive s.decoder m }) := by
    obtain ⟨a, -, -, hw, ⟨-, -, he⟩ | ⟨-, -, ⟨-, he⟩ | ⟨-, -, status, he⟩⟩⟩ :=
      decode_spec { s with decoder := arrive s.decoder m }
    · rw [he]
      exact (hw harrive).of_eq rfl
    · rw [he]
      exact hw harrive
    · rw [he]
      exact (hw harrive).of_eq rfl
  exact hdone.of_eq rfl

/-! ### What a step does to a waiting reply -/

theorem served_iff {s : State} (h : Wired s) : Served s ↔ (Waits s → s.currentMode = .radio) :=
  ⟨fun hs hw => (hs hw).1, fun hs hw => ⟨hs hw, h.flushes (hs hw)⟩⟩

/-- A step that takes no slot, leaves the mode and makes no shortage. -/
theorem served_of_less {s s' : State} (hs : Served s) (hw : Wired s) (hw' : Wired s')
    (hslot : s'.link.postponedSize ≠ 0 → s.link.postponedSize ≠ 0)
    (hshort : (panelOf s').Short → (panelOf s).Short ∧ s'.currentMode = s.currentMode) :
    Served s' := by
  rw [served_iff hw']
  rintro ⟨htaken, hspace⟩
  obtain ⟨hspace', hmode⟩ := hshort hspace
  rw [hmode]
  exact (served_iff hw).mp hs ⟨hslot htaken, hspace'⟩

theorem message_served_iff {s : State} (hi : HoldSound s) (hs : Served s) {m : Message}
    (fits : m.payload.length ≤ inSize) :
    Served (receive s m) ↔ LetsGo s (.message m fits) := by
  rw [served_iff (receive_wired hi.wired m), waits_iff, receive_slot]
  obtain ⟨-, ⟨hopens, hmode⟩ | ⟨hclosed, hshake, hmode, hshort⟩⟩ := receive_panel hi.panel fits
  · refine iff_of_true (fun _ => hmode) fun _ ha hn _ => ?_
    exact hopens.elim (absurd · hn) (absurd · ha.2)
  rw [hmode, hshort]
  unfold LetsGo
  by_cases hradio : s.currentMode = .radio
  · exact iff_of_true (fun _ => hradio) fun hn => absurd hradio hn
  by_cases hanswered : Answered m
  · constructor
    · rintro h - - - htaken
      by_contra hroom
      exact hradio (h ⟨htaken.imp_right fun hz => ⟨hanswered, hz⟩, hroom⟩)
    · rintro h ⟨htaken, hroom⟩
      exact absurd (h hradio hanswered hclosed (htaken.imp_right And.right)) hroom
  · refine iff_of_true ?_ fun _ ha => absurd ha hanswered
    rintro ⟨htaken | ⟨ha, -⟩, hroom⟩
    · have hled : m.id ≠ msgIdLedArray := by
        intro hid
        refine hanswered ⟨?_, ?_⟩ <;> rw [hid] <;> decide
      exact (served_iff hi.wired).mp hs ⟨htaken, (roomy_other hi.panel hled).mpr hroom⟩
    · exact absurd ha hanswered

theorem spiStcVect_slot (l : Link) (received : Byte) :
    (spiStcVect l received).postponedSize = l.postponedSize := by
  unfold spiStcVect
  rcases bufferByteFill l.readBuf received with ⟨readBuf, _ | _⟩
  · rfl
  · dsimp only
    rcases bufferByteDrain l.writeBuf with ⟨writeBuf, _ | toSend⟩ <;> rfl

theorem postponeTry_slot (l : Link) (shiftSpace : Byte) :
    (postponeTry l shiftSpace).postponedSize ≠ 0 → l.postponedSize ≠ 0 := by
  unfold postponeTry
  split_ifs with hidle
  · exact id
  · exact fun _ => (not_or.mp hidle).1

theorem display_short {s : State} (h : (panelOf s).Sound) :
    (panelOf { s with flush := flushShiftDisplay s.flush }).Sound ∧
      ((panelOf { s with flush := flushShiftDisplay s.flush }).Short → (panelOf s).Short) := by
  have hquiet := flushQuiet_display s.flush
  have hvalid : s.flush.shiftData.Valid := h.valid
  have hdrain : (flushShiftDisplay s.flush).drain = s.flush.drain := by
    unfold flushShiftDisplay
    split_ifs <;> rfl
  have hless : (flushShiftDisplay s.flush).shiftData.count ≤ s.flush.shiftData.count := by
    have hsuffix := (hquiet.suffix hvalid).length_le
    rwa [contents_length, contents_length] at hsuffix
  refine ⟨⟨hquiet.valid hvalid, fun hd => ?_, fun hi ht => hdrain.trans (h.drains hi ht), h.closed⟩,
    fun hs => ?_⟩
  · have hzero := h.drained (hdrain.symm.trans hd)
    exact Nat.le_zero.mp (hless.trans hzero.le)
  · rw [Panel.short_iff (hquiet.valid hvalid)] at hs
    exact (Panel.short_iff hvalid).mpr (lt_of_lt_of_le hs hless)

theorem int3Vect_wired {s : State} (h : Wired s) : Wired (int3Vect s) :=
  h.of_timers (h.table.schedule .spi confirmHoldTime) (atSchedule_other _ (by decide) _ _ _) rfl rfl

theorem panelOf_int3Vect (s : State) : panelOf (int3Vect s) = panelOf s := by
  simp only [panelOf, int3Vect]

theorem hold_sound_step {s : State} (hi : HoldSound s) (e : HoldEvent) :
    HoldSound (holdStep s e) := by
  cases e with
  | message m fits => exact ⟨receive_wired hi.wired m, (receive_panel hi.panel fits).1⟩
  | exchange received => exact ⟨hi.wired.of_eq rfl, hi.panel⟩
  | postponeTry => exact ⟨hi.wired.of_eq rfl, hi.panel⟩
  | rotor id action =>
    refine ⟨(quiet_menuHandleRotor s id action).wired hi.wired, ?_⟩
    obtain ⟨hni, hnt⟩ := rotorToState_open id
    rw [holdStep, panelOf_menuHandleRotor]
    exact (hi.panel.rotor hni hnt).1
  | expire id =>
    refine ⟨(quiet_atExpire s id).wired hi.wired, ?_⟩
    rw [holdStep, panelOf_atExpire hi.wired.table]
    split_ifs
    · exact hi.panel.stop.1
    · exact hi.panel
  | flushTick =>
    rw [holdStep]
    split_ifs
    · exact ⟨hi.wired.of_eq rfl, (display_short hi.panel).1⟩
    · exact hi
  | heartbeatTick =>
    rw [holdStep]
    split_ifs
    · refine ⟨(quiet_heartbeatVerify s).wired hi.wired, ?_⟩
      rw [panelOf_heartbeatVerify hi.wired]
      split_ifs
      · exact hi.panel.mode .watch
      · exact hi.panel
    · exact hi
  | int2 =>
    refine ⟨(quiet_twi s _).wired hi.wired, ?_⟩
    rw [holdStep, panelOf_twi]
    exact hi.panel
  | int3 =>
    refine ⟨int3Vect_wired hi.wired, ?_⟩
    rw [holdStep, panelOf_int3Vect]
    exact hi.panel

/-- The timer of the menu, when it is scheduled, leaves a reply waiting only in a
closed menu. -/
theorem expire_served_iff {s : State} (hi : HoldSound s) (hs : Served s) (id : AtId) :
    Served (atExpire s id) ↔ LetsGo s (.expire id) := by
  have hquiet := quiet_atExpire s id
  have hpanel := panelOf_atExpire hi.wired.table id
  by_cases hmenu : id = .menu ∧ s.timers.callback id ≠ none
  · rw [if_pos hmenu] at hpanel
    obtain ⟨rfl, hcb⟩ := hmenu
    obtain ⟨-, hshort, hmode⟩ := hi.panel.stop
    rw [served_iff (hquiet.wired hi.wired), waits_iff, hquiet.link.slot, hpanel, hshort]
    have hstop : (atExpire s .menu).currentMode = (panelOf s).stop.mode := congrArg Panel.mode hpanel
    unfold LetsGo
    constructor
    · rintro h ⟨-, -, hidle⟩ ⟨htaken, hspace⟩
      have hradio := h ⟨htaken, hidle, hspace⟩
      rw [hstop, hmode hidle] at hradio
      exact absurd hradio (by decide)
    · rintro h ⟨htaken, hidle, hspace⟩
      exact absurd ⟨htaken, hspace⟩ (h ⟨rfl, hcb, hidle⟩)
  · rw [if_neg hmenu] at hpanel
    refine iff_of_true ?_ fun h => absurd ⟨h.1, h.1 ▸ h.2.1⟩ hmenu
    refine served_of_less hs hi.wired (hquiet.wired hi.wired) (fun h => hquiet.link.slot ▸ h)
      fun hspace => ?_
    rw [hpanel] at hspace
    exact ⟨hspace, congrArg Panel.mode hpanel⟩

theorem heartbeat_served_iff {s : State} (hi : HoldSound s) (hs : Served s) :
    Served (holdStep s .heartbeatTick) ↔ LetsGo s .heartbeatTick := by
  unfold holdStep LetsGo
  by_cases hcron : s.timers.callbackArray .idHeartbeat = some .heartbeatVerify
  · have hquiet := quiet_heartbeatVerify s
    have hpanel := panelOf_heartbeatVerify hi.wired
    rw [if_pos hcron, served_iff (hquiet.wired hi.wired), waits_iff, hquiet.link.slot, hpanel]
    have hmode := congrArg Panel.mode hpanel
    by_cases hlost : Loses s.heartbeat
    · rw [if_pos hlost] at hmode ⊢
      have hwatch : (heartbeatVerify s).currentMode ≠ .radio := by
        rw [show (heartbeatVerify s).currentMode = .watch from hmode]
        decide
      exact ⟨fun h _ hw => hwatch (h hw), fun h hw => absurd hw (h ⟨hcron, hlost⟩)⟩
    · rw [if_neg hlost] at hmode ⊢
      rw [show (heartbeatVerify s).currentMode = s.currentMode from hmode]
      exact iff_of_true ((served_iff hi.wired).mp hs) fun h => absurd h.2 hlost
  · rw [if_neg hcron]
    exact iff_of_true hs fun h => absurd h.1 hcron

theorem served_step_iff {s : State} (hi : HoldSound s) (hs : Served s) (e : HoldEvent) :
    Served (holdStep s e) ↔ LetsGo s e := by
  have hsound := hold_sound_step hi e
  have hquietly : LetsGo s e → (holdStep s e).link.postponedSize = s.link.postponedSize →
      panelOf (holdStep s e) = panelOf s → (Served (holdStep s e) ↔ LetsGo s e) := by
    intro hc hslot hpanel
    refine iff_of_true (served_of_less hs hi.wired hsound.wired (fun h => hslot ▸ h) ?_) hc
    rw [hpanel]
    exact fun h => ⟨h, congrArg Panel.mode hpanel⟩
  cases e with
  | message m fits => exact message_served_iff hi hs fits
  | exchange received => exact hquietly trivial (spiStcVect_slot s.link received) rfl
  | postponeTry =>
    exact iff_of_true (served_of_less hs hi.wired hsound.wired (postponeTry_slot s.link _)
      fun h => ⟨h, rfl⟩) trivial
  | rotor id action =>
    obtain ⟨hni, hnt⟩ := rotorToState_open id
    have hpanel := panelOf_menuHandleRotor s id action
    have hslot := (quiet_menuHandleRotor s id action).link.slot
    refine iff_of_true (served_of_less hs hi.wired hsound.wired (fun h => hslot ▸ h) fun h => ?_)
      trivial
    rw [holdStep, hpanel] at h
    obtain ⟨hspace, hmode⟩ := (hi.panel.rotor hni hnt).2 h
    exact ⟨hspace, (congrArg Panel.mode hpanel).trans hmode⟩
  | expire id => exact expire_served_iff hi hs id
  | flushTick =>
    by_cases hcron : s.timers.callbackArray .idFlush = some .flushShiftDisplay
    · have hstep : holdStep s .flushTick = { s with flush := flushShiftDisplay s.flush } :=
        if_pos hcron
      rw [hstep] at hsound ⊢
      exact iff_of_true (served_of_less hs hi.wired hsound.wired id
        fun h => ⟨(display_short hi.panel).2 h, rfl⟩) trivial
    · have hstep : holdStep s .flushTick = s := if_neg hcron
      rw [hstep]
      exact iff_of_true hs trivial
  | heartbeatTick => exact heartbeat_served_iff hi hs
  | int2 => exact hquietly trivial (quiet_twi s _).link.slot (panelOf_twi s _)
  | int3 => exact hquietly trivial (postponeMessage_slot _ _) (panelOf_int3Vect s)

/-! ### Whole runs -/

theorem init_holdSound : HoldSound init where
  wired := init_wired
  panel := by
    refine ⟨?_, ?_, ?_, ?_⟩
    · have hflush : init.flush = flushInit := modeSet_flush _ _
      rw [panelOf, hflush]
      exact bufferInit_valid
    all_goals decide +kernel

/-- From power on, a reply waits for space only while the flush cron makes some,
throughout a run exactly when no step leaves one waiting outside radio mode. -/
theorem reply_served_iff (es : List HoldEvent) :
    Throughout holdStep Served init es ↔ Along holdStep LetsGo init es :=
  throughout_iff_along (fun s e hi _ _ => hold_sound_step hi e)
    (fun s e hi hs => served_step_iff hi hs e) init_holdSound fun h => absurd h (by decide +kernel)

/-- Twenty columns. -/
def columnsMessage : Message := ⟨9, msgIdLedArray, List.replicate ledArraySize 0⟩

/-- The Pi goes silent for four heartbeats, then sends on as before: the twelfth
answer waits in watch mode, where nothing takes columns away. -/
def silentRun : List HoldEvent :=
  [HoldEvent.message ⟨0, msgIdHandshake, []⟩ (by decide)] ++
    List.replicate 4 HoldEvent.heartbeatTick ++
    (List.replicate 12 [HoldEvent.message columnsMessage (by decide), .postponeTry]).flatten

theorem silence_leaves_reply_waiting :
    Waits (run holdStep init silentRun) ∧ (run holdStep init silentRun).currentMode = .watch := by
  decide +kernel

end LedServer.Avr
