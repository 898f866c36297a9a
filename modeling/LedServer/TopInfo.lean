import LedServer.SuspendDrain

set_option autoImplicit false

/-!
# `m_top_info` and the picture of a name

The Pi stores a name before the AVR has seen it, and forgets it with the next
SUSPEND. A name that is stored is on its way down, shown, or about to be
forgotten.
-/
namespace LedServer
open LedServer.Pi LedServer.Mcu Machine

/-- What `content_t::out` gives without a top text. -/
def Pi.Content.Ordinary (c : Content) : Prop :=
  c.topInfo = [] ∧ (c.out.2 ∈ c.middleInfo ∨ (∃ id, c.out.2 = (c.bottomInfo id).getD []) ∨
    c.out.2 = text "Content is empty, nothing to display ")

theorem ordinary_iff (c : Content) : c.Ordinary ↔ c.topInfo = [] := by
  refine ⟨And.left, fun htop => ⟨htop, ?_⟩⟩
  unfold Content.out
  rw [if_neg (by simp [htop])]
  cases c.middleInfo with
  | cons info rest => exact .inl List.mem_cons_self
  | nil =>
    dsimp only
    cases (if c.iterator = none then c.begin else c.iterator) with
    | some id => exact .inr (.inl ⟨id, rfl⟩)
    | none => exact .inr (.inr rfl)

def IsQueryName (msg : List Byte) : Prop := decodeGetMsgId msg = some msgIdQueryName

instance (msg : List Byte) : Decidable (IsQueryName msg) := inferInstanceAs (Decidable (_ = _))

def IsNameId (id : CommandId) : Prop := id = .mpcPlaylistName ∨ id = .mpcTrackName

instance (id : CommandId) : Decidable (IsNameId id) := inferInstanceAs (Decidable (_ ∨ _))

namespace Composed

/-- Nothing that the claim names is pending. -/
structure Quiescent (t : Composed) : Prop where
  closed : t.avr.state.menu.state = .idle
  up : ∀ msg ∈ t.up, ¬ IsSuspend msg ∧ ¬ IsResume msg ∧ ¬ IsQueryName msg
  down : ∀ msg ∈ t.handle.toMcuQueue ++ t.down, ¬ IsQueryName msg
  commands : ∀ command ∈ t.handle.commandQueue ++ t.running, ¬ IsNameId command.id
  statuses : ∀ status ∈ t.handle.statusQueue, ¬ IsNameId status.id
  here : t.goodbye = false

instance (t : Composed) : Decidable t.Quiescent :=
  decidable_of_iff (t.avr.state.menu.state = .idle ∧
      (∀ msg ∈ t.up, ¬ IsSuspend msg ∧ ¬ IsResume msg ∧ ¬ IsQueryName msg) ∧
      (∀ msg ∈ t.handle.toMcuQueue ++ t.down, ¬ IsQueryName msg) ∧
      (∀ command ∈ t.handle.commandQueue ++ t.running, ¬ IsNameId command.id) ∧
      (∀ status ∈ t.handle.statusQueue, ¬ IsNameId status.id) ∧ t.goodbye = false)
    ⟨fun ⟨h₁, h₂, h₃, h₄, h₅, h₆⟩ => ⟨h₁, h₂, h₃, h₄, h₅, h₆⟩,
      fun h => ⟨h.closed, h.up, h.down, h.commands, h.statuses, h.here⟩⟩

/-- The claim about one state. -/
def Plain (t : Composed) : Prop := t.Quiescent → t.handle.content.Ordinary

/-- The daemon says goodbye, one of `asked` is a QUERY_NAME, or a SUSPEND is on its way. -/
def Awaits (t : Composed) (asked : List (List Byte)) : Prop :=
  t.goodbye = true ∨ (∃ msg ∈ asked, IsQueryName msg) ∨ ∃ msg ∈ t.up, IsSuspend msg

instance (t : Composed) (asked : List (List Byte)) : Decidable (t.Awaits asked) :=
  inferInstanceAs (Decidable (_ ∨ _ ∨ _))

def Awaited (t : Composed) : Prop := t.Awaits (t.handle.toMcuQueue ++ t.down)

instance (t : Composed) : Decidable t.Awaited := inferInstanceAs (Decidable (t.Awaits _))

/-- A top text is awaited or shown. -/
def TopSound (t : Composed) : Prop :=
  t.handle.content.topInfo ≠ [] → t.avr.state.menu.state = .tag ∨ t.Awaited

end Composed

/-- The picture of a name is left with a SUSPEND, and a name comes in time,
unless something else is awaited. -/
def KeepsTop (t : Composed) : ComposedEvent → Prop
  | .avr (.rotor _ _) => t.avr.pc = .idle → t.handle.content.topInfo ≠ [] →
      t.avr.state.menu.state = .tag →
        (t.avr.state.isConnected = true ∧ Avr.isWritable t.avr.state.link = true) ∨ t.Awaited
  | .avr (.expire id) => t.avr.pc = .idle → t.handle.content.topInfo ≠ [] →
      t.avr.state.menu.state = .tag → id = .menu ∧ t.avr.state.timers.callback id ≠ none →
        (t.avr.state.isConnected = true ∧ Avr.isWritable t.avr.state.link = true) ∨ t.Awaited
  | .decodeStep => ∀ s ∈ Avr.invoked t.avr, (Avr.decodedMessage s.decoder).id = msgIdQueryName →
      t.handle.content.topInfo ≠ [] → s.menu.state = .tag ∨
        Avr.OpensTag s (Avr.decodedMessage s.decoder) ∨
          t.Awaits (t.handle.toMcuQueue ++ t.down.tail)
  | _ => True

instance (t : Composed) (e : ComposedEvent) : Decidable (KeepsTop t e) :=
  match e with
  | .avr (.rotor _ _) => inferInstanceAs (Decidable (_ → _))
  | .avr (.expire _) => inferInstanceAs (Decidable (_ → _))
  | .decodeStep => inferInstanceAs (Decidable (∀ s ∈ Avr.invoked t.avr, _))
  | .avr .postponeTry | .avr .flushTick | .avr .heartbeatTick | .avr .int2 | .exchange | .pi
  | .interrupt _ | .handleMcu | .handleStatus | .execute | .complete _ _ _ | .timeout _
  | .line _ _ | .restart _ _ => .isTrue trivial

theorem Composed.TopSound.plain {t : Composed} (h : t.TopSound) : t.Plain := by
  intro hq
  rw [ordinary_iff]
  by_contra htop
  rcases h htop with htag | hbye | ⟨msg, hm, hname⟩ | ⟨msg, hm, hsuspend⟩
  · rw [hq.closed] at htag
    cases htag
  · rw [hq.here] at hbye
    cases hbye
  · exact hq.down msg hm hname
  · exact (hq.up msg hm).1 hsuspend

/-! ### One step -/

/-- SUSPENDs on the way up after some have been appended. -/
theorem suspend_append {t t' : Composed} {told : List Message}
    (hup : t'.up.filter signalMsg = t.up.filter signalMsg ++ told.map Message.body) :
    (∃ msg ∈ t'.up, IsSuspend msg) ↔
      (∃ msg ∈ t.up, IsSuspend msg) ∨ ∃ m ∈ told, m.id = msgIdSuspend := by
  have hfilter : ∀ msgs : List (List Byte),
      (∃ msg ∈ msgs, IsSuspend msg) ↔ ∃ msg ∈ msgs.filter signalMsg, IsSuspend msg := by
    intro msgs
    constructor
    · rintro ⟨msg, hm, hs⟩
      exact ⟨msg, List.mem_filter.mpr ⟨hm, by simp [signalMsg, hs]⟩, hs⟩
    · rintro ⟨msg, hm, hs⟩
      exact ⟨msg, (List.mem_filter.mp hm).1, hs⟩
  have hbody : ∀ m : Message, IsSuspend m.body ↔ m.id = msgIdSuspend := by
    intro m
    simp [IsSuspend, decodeGetMsgId, Message.body]
  rw [hfilter, hup, hfilter t.up]
  simp only [List.mem_append, List.mem_map, or_and_right, exists_or]
  constructor
  · rintro (h | ⟨msg, ⟨m, hm, rfl⟩, hs⟩)
    · exact .inl h
    · exact .inr ⟨m, hm, (hbody m).mp hs⟩
  · rintro (h | ⟨m, hm, hid⟩)
    · exact .inl h
    · exact .inr ⟨m.body, ⟨m, hm, rfl⟩, (hbody m).mpr hid⟩

/-- A step of the AVR on its side of the claim. -/
theorem top_avr_iff {t t' : Composed} {s : Avr.State} {e : Avr.HoldEvent} (h : ComposedSound t)
    (hm : AvrMoves t t' s e) :
    t'.TopSound ↔ (t.handle.content.topInfo ≠ [] → Avr.TagAfter s e ∨
      Avr.Suspends s e ∨ t.Awaits (t.handle.toMcuQueue ++ t'.down)) := by
  have hhold := hm.read.hold h.hold
  have hup := hm.up signalMsg_body h (Avr.tells_holdStep hhold.wired.table e)
  have hsuspend := suspend_append hup
  rw [Avr.signals_suspend] at hsuspend
  have htag := Avr.holdStep_tag hhold.wired e
  have hhandle : t'.handle = t.handle := by rw [hm.rest]
  have hbye : t'.goodbye = t.goodbye := by rw [hm.rest]
  unfold Composed.TopSound Composed.Awaited Composed.Awaits
  rw [hsuspend, hm.avr, htag, hhandle, hbye]
  have hturn : ∀ a b c d e : Prop, (a ∨ b ∨ c ∨ d ∨ e) ↔ (a ∨ e ∨ b ∨ c ∨ d) := by grind
  exact imp_congr_right fun _ => hturn _ _ _ _ _

theorem isQueryName_body (m : Message) : IsQueryName m.body ↔ m.id = msgIdQueryName := by
  simp [IsQueryName, decodeGetMsgId, Message.body]

/-- A step in which nobody handles a message. -/
theorem top_quiet {t t' : Composed} (hq : PiQuiet t t') (hs : t.TopSound) : t'.TopSound := by
  obtain ⟨l, d, pc, hl⟩ := hq.avr
  intro htop
  rw [hq.content] at htop
  rcases hs htop with htag | hbye | ⟨m, hm, hname⟩ | hsus
  · refine .inl ?_
    rw [hl]
    exact htag
  · exact .inr (.inl (hq.goodbye.trans hbye))
  · exact .inr (.inr (.inl ⟨m, hq.asked m hm, hname⟩))
  · exact .inr (.inr (.inr (by rw [hq.up]; exact hsus)))

theorem top_decode_iff {t : Composed} (h : ComposedSound t) (hs : t.TopSound) :
    (composedStep t .decodeStep).TopSound ↔ KeepsTop t .decodeStep := by
  cases hi : Avr.invoked t.avr with
  | none =>
    refine iff_of_true (top_quiet (decodeStep_quiet h hi).1 hs) fun s hm => ?_
    rw [hi] at hm
    cases hm
  | some s =>
    have hd := decodeStep_decodes h hi
    have hcond : KeepsTop t .decodeStep ↔
        ((Avr.decodedMessage s.decoder).id = msgIdQueryName → t.handle.content.topInfo ≠ [] →
          s.menu.state = .tag ∨ Avr.OpensTag s (Avr.decodedMessage s.decoder) ∨
            t.Awaits (t.handle.toMcuQueue ++ t.down.tail)) := by
      unfold KeepsTop
      simp [hi]
    have htail : t.down.tail = (composedStep t .decodeStep).down := by rw [hd.down, List.tail_cons]
    rw [hcond, htail]
    refine (top_avr_iff h hd.moves).trans ?_
    simp only [Avr.TagAfter, Avr.Suspends, false_or, or_assoc]
    by_cases hname : (Avr.decodedMessage s.decoder).id = msgIdQueryName
    · simp only [hname, true_implies]
    · refine iff_of_true (fun htop => ?_) fun hyes => absurd hyes hname
      -- what is awaited is not the message that is decoded
      rcases hs htop with htag | hbye | ⟨m, hm, hq⟩ | hsus
      · obtain ⟨readBuf, d, -, rfl⟩ := hd.moves.read
        exact .inl htag
      · exact .inr (.inr (.inl hbye))
      · refine .inr (.inr (.inr (.inl ⟨m, ?_, hq⟩)))
        rw [hd.down] at hm
        rcases List.mem_append.mp hm with hm | hm
        · exact List.mem_append_left _ hm
        · rcases List.mem_cons.mp hm with rfl | hm
          · exact absurd ((isQueryName_body _).mp hq) hname
          · exact List.mem_append_right _ hm
      · exact .inr (.inr (.inr (.inr hsus)))

/-- Only SUSPEND forgets a top text, and no message stores one. -/
theorem top_popMcu {t : Composed} (hs : t.TopSound) : t.popMcu.TopSound := by
  rcases popMcu_cases t with he | he | ⟨msg, rest, handle, hq, hmcu, he⟩
  · rw [he]
    exact hs
  · rw [he]
    exact hs
  · obtain ⟨pushed, hto⟩ := handleMcu_posts hmcu
    have hkeeps : handle.content.topInfo = [] ∨
        (handle.content.topInfo = t.handle.content.topInfo ∧ handle.fromMcuQueue = rest ∧
          ¬ IsSuspend msg) := by
      have hother : ∀ {id : Byte}, decodeGetMsgId msg = some id → id ≠ msgIdSuspend →
          ¬ IsSuspend msg := by
        intro id hid hne hsus
        rw [IsSuspend, hid, Option.some.injEq] at hsus
        exact hne hsus
      cases handleMcu_case hmcu with
      | quiet commands playlistId resume suspend => exact .inr ⟨rfl, rfl, suspend⟩
      | suspend hid => exact .inl rfl
      | resume hid =>
        exact .inr ⟨infoPush_topInfo _, infoPush_fromMcuQueue _, hother hid (by decide)⟩
      | status hid =>
        exact .inr ⟨infoPush_topInfo _, infoPush_fromMcuQueue _, hother hid.1 (by decide)⟩
      | version hid =>
        exact .inr ⟨infoPush_topInfo _, infoPush_fromMcuQueue _, hother hid.1 (by decide)⟩
    rw [he]
    intro htop
    rcases hkeeps with hnone | ⟨hsame, hfrom, hsus⟩
    · exact absurd hnone htop
    · rcases hs (hsame ▸ htop) with htag | hbye | ⟨m, hm, hname⟩ | ⟨m, hm, hsuspend⟩
      · exact .inl htag
      · exact .inr (.inl hbye)
      · refine .inr (.inr (.inl ⟨m, ?_, hname⟩))
        dsimp only
        rw [hto]
        rcases List.mem_append.mp hm with hm | hm
        · exact List.mem_append_left _ (List.mem_append_left _ hm)
        · exact List.mem_append_right _ hm
      · refine .inr (.inr (.inr ⟨m, ?_, hsuspend⟩))
        unfold Composed.up at hm ⊢
        dsimp only
        rw [hfrom]
        rw [hq, List.cons_append] at hm
        rcases List.mem_cons.mp hm with rfl | hm
        · exact absurd hsuspend hsus
        · exact hm

/-- Content that is none of the names keeps the top text, or says goodbye. -/
theorem contentIn_top (h : Handle) (status : Status) (playlist : status.id ≠ .mpcPlaylistName)
    (track : status.id ≠ .mpcTrackName) :
    (contentIn h status).content.topInfo = h.content.topInfo ∨ status.id = .poweroff := by
  have hcontent : (contentIn h status).content = (h.content.input status).1 := by
    unfold contentIn
    dsimp only
    cases (h.content.input status).2 <;> rfl
  have hinput : (h.content.input status).1.topInfo = (h.content.store status).topInfo := by
    unfold Content.input
    dsimp only
    split <;> rfl
  rw [hcontent, hinput]
  unfold Content.store
  cases hid : status.id with
  | mpcPlaylistName => exact absurd hid playlist
  | mpcTrackName => exact absurd hid track
  | poweroff => exact .inr rfl
  | streamTrackName =>
    refine .inl ?_
    dsimp only
    split <;> rfl
  | _ => exact .inl rfl

theorem top_popStatus {t : Composed} (hs : t.TopSound) : t.popStatus.TopSound := by
  rcases popStatus_cases t with he | ⟨status, rest, hq, he | ⟨handle, hstatus, he⟩⟩
  · rw [he]
    exact hs
  · rw [he]
    intro htop
    rcases hs htop with htag | hbye | hname | hsus
    · exact .inl htag
    · exact .inr (.inl (by simp [hbye]))
    · exact .inr (.inr (.inl hname))
    · exact .inr (.inr (.inr hsus))
  · -- nothing that is awaited gets lost
    have hkeeps : handle.content.topInfo = t.handle.content.topInfo →
        Composed.TopSound { t with
          goodbye := t.goodbye || status.id = CommandId.poweroff, handle := handle } := by
      intro hsame htop
      obtain ⟨pushed, hto⟩ := handleStatus_posts hstatus
      obtain ⟨_, _, _, _, -, hanswers⟩ := handleStatus_answers hstatus
      have hfrom : handle.fromMcuQueue = t.handle.fromMcuQueue := by rw [hanswers]
      rcases hs (hsame ▸ htop) with htag | hbye | ⟨m, hm, hname⟩ | ⟨m, hm, hsuspend⟩
      · exact .inl htag
      · exact .inr (.inl (by simp [hbye]))
      · refine .inr (.inr (.inl ⟨m, ?_, hname⟩))
        dsimp only
        rw [hto]
        rcases List.mem_append.mp hm with hm | hm
        · exact List.mem_append_left _ (List.mem_append_left _ hm)
        · exact List.mem_append_right _ hm
      · refine .inr (.inr (.inr ⟨m, ?_, hsuspend⟩))
        unfold Composed.up at hm ⊢
        dsimp only
        rw [hfrom]
        exact hm
    rw [he]
    cases handleStatus_case hstatus with
    | quiet commands => exact hkeeps rfl
    | number param value min max => exact hkeeps rfl
    | name parameter id =>
      intro _
      refine .inr (.inr (.inl ⟨encodeJoin (mcuIdGet (contentIn
        { t.handle with statusQueue := rest } status).serialId) msgIdQueryName [parameter, id],
        List.mem_append_left _ ?_, rfl⟩))
      exact List.mem_append_right _ (List.mem_singleton_self _)
    | content playlist track =>
      rcases contentIn_top { t.handle with statusQueue := rest } status playlist track with
        hsame | hbye
      · exact hkeeps hsame
      · intro _
        exact .inr (.inl (by simp [hbye]))

theorem top_step_iff {t : Composed} (h : ComposedSound t) (hs : t.TopSound) {e : ComposedEvent}
    (hc : Clear t e) : (composedStep t e).TopSound ↔ KeepsTop t e := by
  have hlive : ∀ e : ComposedEvent, (t.piStep e).TopSound →
      (if t.terminated = true then t else t.piStep e).TopSound := by
    intro e hq
    split
    · exact hs
    · exact hq
  have hquiet : e.Quiet → (composedStep t e).TopSound := fun hq =>
    top_quiet (composedStep_quiet h hq hc) hs
  have havr : ∀ e' : AvrEvent, t.Runs e' → ((composedStep t (.avr e')).TopSound ↔
      (t.handle.content.topInfo ≠ [] → Avr.TagAfter t.avr.state e'.hold ∨
        Avr.Suspends t.avr.state e'.hold ∨ t.Awaited)) := by
    intro e' hr
    have hiff := top_avr_iff h (avr_moves h hr)
    rw [avr_down hr] at hiff
    exact hiff
  -- a step of the AVR that leaves the picture where it is
  have hcalm : ∀ e' : AvrEvent,
      (t.avr.state.menu.state = .tag → Avr.TagAfter t.avr.state e'.hold) →
      (composedStep t (.avr e')).TopSound := by
    intro e' htag
    by_cases hr : t.Runs e'
    · rw [havr e' hr]
      intro htop
      exact (hs htop).imp htag fun hw => .inr hw
    · rw [stepAvr_waits hr]
      exact hs
  cases e with
  | avr e =>
    cases e with
    | rotor id action =>
      by_cases hr : t.avr.pc = .idle
      · rw [havr _ (.inl hr)]
        simp only [AvrEvent.hold, Avr.TagAfter, Avr.Suspends, false_or, KeepsTop, hr, true_implies]
        refine imp_congr_right fun htop => ?_
        constructor
        · rintro (⟨-, hsent⟩ | hw) htag
          · exact .inl hsent
          · exact .inr hw
        · intro hk
          rcases hs htop with htag | hw
          · exact (hk htag).imp (fun hsent => ⟨.inl htag, hsent⟩) fun hw => hw
          · exact .inr hw
      · rw [stepAvr_waits (not_or.mpr ⟨hr, AvrEvent.noConfusion⟩)]
        exact iff_of_true hs fun hyes => absurd hyes hr
    | expire id =>
      by_cases hr : t.avr.pc = .idle
      · rw [havr _ (.inl hr)]
        simp only [AvrEvent.hold, Avr.TagAfter, Avr.Suspends, KeepsTop, hr, true_implies]
        refine imp_congr_right fun htop => ?_
        constructor
        · rintro (⟨-, hno⟩ | ⟨-, -, hsent⟩ | hw) htag hmenu
          · exact absurd hmenu hno
          · exact .inl hsent
          · exact .inr hw
        · intro hk
          rcases hs htop with htag | hw
          · by_cases hmenu : id = .menu ∧ t.avr.state.timers.callback id ≠ none
            · exact .inr ((hk htag hmenu).imp (fun hsent => ⟨hmenu, htag, hsent⟩) fun hw => hw)
            · exact .inl ⟨htag, hmenu⟩
          · exact .inr (.inr hw)
      · rw [stepAvr_waits (not_or.mpr ⟨hr, AvrEvent.noConfusion⟩)]
        exact iff_of_true hs fun hyes => absurd hyes hr
    | postponeTry => exact iff_of_true (hcalm .postponeTry fun htag => htag) trivial
    | flushTick => exact iff_of_true (hcalm .flushTick fun htag => htag) trivial
    | heartbeatTick => exact iff_of_true (hcalm .heartbeatTick fun htag => htag) trivial
    | int2 => exact iff_of_true (hcalm .int2 fun htag => htag) trivial
  | decodeStep => exact top_decode_iff h hs
  | restart trackRegexList firstByte => exact iff_of_true (fun htop => absurd rfl htop) trivial
  | handleMcu => exact iff_of_true (hlive _ (top_popMcu hs)) trivial
  | handleStatus => exact iff_of_true (hlive _ (top_popStatus hs)) trivial
  | _ => exact iff_of_true (hquiet trivial) trivial

/-! ### Whole runs -/

theorem composedInit_top : composedInit.TopSound := fun htop => absurd rfl htop

/-- A top text is awaited or shown, in every state of a run that loses no byte exactly
when no step leaves one behind. -/
theorem top_iff {es : List ComposedEvent} (hc : Along composedStep Clear composedInit es) :
    Throughout composedStep Composed.TopSound composedInit es ↔
      Along composedStep KeepsTop composedInit es :=
  throughout_iff_along_of_along (fun _ _ h _ hc _ => composedSound_step h hc)
    (fun _ _ h hs hc => top_step_iff h hs hc) hc composedInit_sound composedInit_top

/-- The next message goes down and its STATUS comes back. -/
def answered (bytes frames : ℕ) : List ComposedEvent :=
  sent bytes ++ decoded frames ++ .avr .postponeTry :: brought 1 ++ taken 1

def reported (i : ℕ) (out : String) : List ComposedEvent :=
  [.complete i Status.good (text out), .handleStatus]

/-- The daemon is started and the playlist knob turned. -/
def playlistAsked : List ComposedEvent :=
  .restart [] 0 :: .line .streamTrackName (text "I") :: .handleStatus :: brought 1 ++ taken 1 ++
    sent 4 ++ decoded 3 ++ .avr (.rotor Avr.rotorPlaylist Avr.rotorClockwise) :: brought 2 ++
    taken 2 ++ [ComposedEvent.execute]

/-- The answer to its QUERY_NUMBER comes back. -/
def playlistTurned : List ComposedEvent :=
  playlistAsked ++ reported 0 "0-1-3" ++ answered 20 4 ++ answered 8 3

/-- It is turned on to the first playlist, whose name the AVR asks for. -/
def nameAsked : List ComposedEvent :=
  playlistTurned ++ .avr (.rotor Avr.rotorPlaylist Avr.rotorClockwise) ::
    .avr (.expire .menuTag) :: .pi :: brought 1 ++ taken 1 ++ [ComposedEvent.execute]

/-- The name comes while the menu is open. -/
@[irreducible] def nameInTime : List ComposedEvent :=
  nameAsked ++ reported 0 "1-R" ++ sent 6 ++ decoded 5 ++ .avr .postponeTry :: brought 2 ++
    taken 2 ++ .avr (.expire .menu) :: sent 24 ++ taken 3

/-- It comes when the menu has been closed and the Pi has resumed. -/
@[irreducible] def nameLate : Composed :=
  run composedStep composedInit (nameAsked ++ .avr (.expire .menu) :: .pi :: brought 2 ++
    taken 2 ++ reported 0 "1-R" ++ answered 20 8 ++ sent 6 ++ decoded 3)

end LedServer
