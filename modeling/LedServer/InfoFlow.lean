import LedServer.Machine
import LedServer.PiHandleStep

set_option autoImplicit false

/-!
# The text stream of `handle_t`

It clocks itself: an LED_ARRAY is made when the STATUS of the last one, a RESUME
or a VERSION is handled, unless `QUEUE_SIZE_LIMIT` messages of any kind wait.
-/
namespace LedServer.Pi
open Mcu Machine

/-- `handle_t`, the message `mcu_handle_t` has sent and waits for, whether a
VERSION has been accepted, and whether an exception has ended the program. -/
structure FlowState where
  handle : Handle
  sent : Option (List Byte)
  versioned : Bool
  terminated : Bool

inductive FlowEvent where
  | status (status : Status)
  | mcu (msg : List Byte)
  | send
  | answer (value : Byte)
  | handleStatus
  | handleMcu

/-- The message a transfer leaves pending. -/
def pendingOf (msg : List Byte) : Option (List Byte) :=
  if decodeGetSerial msg = none ∨ decodeGetSerial msg = some serialIdToIgnore then none
  else some msg

/-- The STATUS the AVR answers a message with. -/
def statusOf (value : Byte) : List Byte → List Byte
  | serial :: msgId :: _ => encodeJoin serial msgIdStatus [value, msgId]
  | _ => []

def flowStep (t : FlowState) (e : FlowEvent) : FlowState :=
  if t.terminated = true then t
  else
    match e with
    | .status status =>
      { t with handle := { t.handle with statusQueue := t.handle.statusQueue ++ [status] } }
    | .mcu msg =>
      { t with handle := { t.handle with fromMcuQueue := t.handle.fromMcuQueue ++ [msg] } }
    | .send =>
      if t.sent ≠ none then t
      else
        match t.handle.toMcuQueue with
        | [] => t
        | msg :: rest =>
          { t with handle := { t.handle with toMcuQueue := rest }, sent := pendingOf msg }
    | .answer value =>
      match t.sent with
      | none => t
      | some msg =>
        { t with
          handle :=
            { t.handle with fromMcuQueue := t.handle.fromMcuQueue ++ [statusOf value msg] }
          sent := none }
    | .handleStatus =>
      match t.handle.statusQueue with
      | [] => t
      | status :: rest =>
        match handleStatus { t.handle with statusQueue := rest } status with
        | none => { t with terminated := true }
        | some handle => { t with handle := handle }
    | .handleMcu =>
      match t.handle.fromMcuQueue with
      | [] => t
      | msg :: rest =>
        match handleMcu { t.handle with fromMcuQueue := rest } msg with
        | none => { t with terminated := true }
        | some handle => { t with handle := handle, versioned := t.versioned || IsVersion msg }

/-- An LED_ARRAY is queued, or sent and not answered, or its STATUS is waiting. -/
def Alive (fromMcuQueue toMcuQueue : List (List Byte)) (sent : Option (List Byte)) : Prop :=
  (∃ msg ∈ toMcuQueue, IsLedArray msg) ∨ (∃ msg ∈ sent, IsLedArray msg) ∨
    ∃ msg ∈ fromMcuQueue, IsLedStatus msg

instance (fromMcuQueue toMcuQueue : List (List Byte)) (sent : Option (List Byte)) :
    Decidable (Alive fromMcuQueue toMcuQueue sent) := inferInstanceAs (Decidable (_ ∨ _ ∨ _))

def InfoAlive (t : FlowState) : Prop :=
  t.versioned = true → t.handle.suspend = false →
    Alive t.handle.fromMcuQueue t.handle.toMcuQueue t.sent

/-- The message about to be handled calls `info_push` when the flow has to be alive
afterwards. -/
def Triggers (t : FlowState) (msg : List Byte) : Prop :=
  (decodeGetMsgId msg = some msgIdResume ∧ t.versioned = true) ∨
    (IsLedStatus msg ∧ t.versioned = true ∧ t.handle.suspend = false) ∨
    (IsVersion msg ∧ t.handle.suspend = false)

instance (t : FlowState) (msg : List Byte) : Decidable (Triggers t msg) :=
  inferInstanceAs (Decidable (_ ∨ _ ∨ _))

/-- What `info_push` finds in `m_to_mcu_queue`: HANDSHAKE counts. -/
def queueSize (t : FlowState) (msg : List Byte) : ℕ :=
  t.handle.toMcuQueue.length + if IsVersion msg then 1 else 0

/-- A trigger finds room in the queue, or another LED_ARRAY keeps the flow alive. -/
def KeepsFlow (t : FlowState) : FlowEvent → Prop
  | .handleMcu => ∀ msg ∈ t.handle.fromMcuQueue.head?, t.terminated = false → Triggers t msg →
      queueSize t msg < queueSizeLimit ∨
        Alive t.handle.fromMcuQueue.tail t.handle.toMcuQueue t.sent
  | _ => True

instance (t : FlowState) (e : FlowEvent) : Decidable (KeepsFlow t e) := by
  cases e <;> unfold KeepsFlow <;> infer_instance

/-! ### One step -/

theorem Alive.mono {from₁ from₂ to₁ to₂ : List (List Byte)} {sent : Option (List Byte)}
    (h : Alive from₁ to₁ sent) (hf : from₁ ⊆ from₂) (ht : to₁ ⊆ to₂) : Alive from₂ to₂ sent := by
  rcases h with ⟨msg, hm, hl⟩ | hs | ⟨msg, hm, hl⟩
  · exact .inl ⟨msg, ht hm, hl⟩
  · exact .inr (.inl hs)
  · exact .inr (.inr ⟨msg, hf hm, hl⟩)

theorem isLedStatus_statusOf {msg : List Byte} (value : Byte) (h : IsLedArray msg) :
    IsLedStatus (statusOf value msg) := by
  match msg, h with
  | serial :: msgId :: rest, h =>
    have hid : msgId = msgIdLedArray := Option.some.inj h
    rw [hid]
    exact ⟨rfl, rfl⟩

theorem pendingOf_ledArray {msg : List Byte} (h : IsLedArray msg)
    (hs : decodeGetSerial msg ≠ some serialIdToIgnore) : pendingOf msg = some msg := by
  match msg, h with
  | serial :: msgId :: rest, h =>
    refine if_neg (not_or.mpr ⟨?_, hs⟩)
    simp [decodeGetSerial]

/-- The LED_ARRAYs in the queue have serials that are answered. -/
def LedNumbered (queue : List (List Byte)) : Prop :=
  ∀ msg ∈ queue, IsLedArray msg → decodeGetSerial msg ≠ some serialIdToIgnore

theorem LedNumbered.append {queue pushed : List (List Byte)} (h : LedNumbered queue)
    (hp : ∀ msg ∈ pushed, Numbered msg) : LedNumbered (queue ++ pushed) := by
  intro msg hm hl
  rcases List.mem_append.mp hm with hm | hm
  · exact h msg hm hl
  · obtain ⟨serial, msgId, payload, rfl, hs⟩ := hp msg hm
    intro hz
    exact hs (Option.some.inj hz)

theorem alive_send {from' to' : List (List Byte)} {msg : List Byte}
    (hn : IsLedArray msg → decodeGetSerial msg ≠ some serialIdToIgnore)
    (h : Alive from' (msg :: to') none) : Alive from' to' (pendingOf msg) := by
  rcases h with ⟨m, hm, hl⟩ | ⟨m, hm, -⟩ | hs
  · rcases List.mem_cons.mp hm with rfl | hm
    · exact .inr (.inl ⟨m, by rw [pendingOf_ledArray hl (hn hl)]; rfl, hl⟩)
    · exact .inl ⟨m, hm, hl⟩
  · cases hm
  · exact .inr (.inr hs)

theorem alive_answer {from' to' : List (List Byte)} {msg : List Byte} (value : Byte)
    (h : Alive from' to' (some msg)) : Alive (from' ++ [statusOf value msg]) to' none := by
  rcases h with ht | ⟨m, hm, hl⟩ | ⟨m, hm, hs⟩
  · exact .inl ht
  · obtain rfl : msg = m := by simpa using hm
    exact .inr (.inr ⟨_, List.mem_append_right _ (List.mem_singleton_self _),
      isLedStatus_statusOf value hl⟩)
  · exact .inr (.inr ⟨m, List.mem_append_left _ hm, hs⟩)

/-- `info_push` keeps what is alive, and revives the flow when there is room. -/
theorem alive_infoPush {h : Handle} {sent : Option (List Byte)} :
    Alive (infoPush h).fromMcuQueue (infoPush h).toMcuQueue sent ↔
      (h.suspend = false ∧ h.toMcuQueue.length < queueSizeLimit) ∨
        Alive h.fromMcuQueue h.toMcuQueue sent := by
  rcases infoPush_cases h with ⟨he, hno⟩ | ⟨hs, hroom, pushed, content, firstByte, serialId, hne,
    hjoin, -, he⟩
  · rw [he]
    refine ⟨.inr, fun hor => hor.resolve_left ?_⟩
    rintro ⟨hs, hroom⟩
    rcases hno with hno | hno
    · rw [hs] at hno
      cases hno
    · omega
  · rw [he]
    refine iff_of_true ?_ (.inl ⟨hs, hroom⟩)
    obtain ⟨msg, hm⟩ := List.exists_mem_of_ne_nil pushed hne
    obtain ⟨serial, payload, rfl, -⟩ := hjoin msg hm
    exact .inl ⟨_, List.mem_append_right _ hm, isLedArray_join serial payload⟩

theorem numbered_infoPush {h : Handle} (hn : LedNumbered h.toMcuQueue) :
    LedNumbered (infoPush h).toMcuQueue := by
  rcases infoPush_cases h with ⟨he, -⟩ | ⟨-, -, pushed, _, _, _, -, hjoin, -, he⟩
  · rw [he]
    exact hn
  · rw [he]
    refine hn.append fun msg hm => ?_
    obtain ⟨serial, payload, rfl, hs, -⟩ := hjoin msg hm
    exact ⟨serial, msgIdLedArray, payload, rfl, hs⟩

theorem numbered_handleMcu {h h' : Handle} {msg : List Byte} (he : handleMcu h msg = some h')
    (hn : LedNumbered h.toMcuQueue) : LedNumbered h'.toMcuQueue := by
  cases handleMcu_case he with
  | quiet => exact hn
  | resume hid => exact numbered_infoPush (h := { h with suspend := false }) hn
  | suspend hid => exact hn
  | status hid => exact numbered_infoPush hn
  | version hid =>
    apply numbered_infoPush
    intro m hm hl
    rcases List.mem_append.mp hm with hm | hm
    · exact hn m hm hl
    · rw [List.mem_singleton.mp hm] at hl
      exact absurd hl (by decide)

/-- The queue of a state, in every step. -/
theorem numbered_step {t : FlowState} (hn : LedNumbered t.handle.toMcuQueue) (e : FlowEvent) :
    LedNumbered (flowStep t e).handle.toMcuQueue := by
  unfold flowStep
  by_cases hend : t.terminated = true
  · rw [if_pos hend]
    exact hn
  rw [if_neg hend]
  cases e with
  | status status => exact hn
  | mcu msg => exact hn
  | send =>
    dsimp only
    split
    · exact hn
    · cases hq : t.handle.toMcuQueue with
      | nil => exact hn
      | cons msg rest =>
        intro m hm
        exact hn m (by rw [hq]; exact List.mem_cons_of_mem msg hm)
  | answer value =>
    dsimp only
    cases t.sent <;> exact hn
  | handleStatus =>
    dsimp only
    cases t.handle.statusQueue with
    | nil => exact hn
    | cons status rest =>
      dsimp only
      cases he : handleStatus { t.handle with statusQueue := rest } status with
      | none => exact hn
      | some handle =>
        obtain ⟨pushed, commands, content, serialId, hp, rfl⟩ := handleStatus_answers he
        exact LedNumbered.append hn hp
  | handleMcu =>
    dsimp only
    cases t.handle.fromMcuQueue with
    | nil => exact hn
    | cons msg rest =>
      dsimp only
      cases he : handleMcu { t.handle with fromMcuQueue := rest } msg with
      | none => exact hn
      | some handle =>
        exact numbered_handleMcu (h := { t.handle with fromMcuQueue := rest }) he hn

/-! ### `handle_mcu` keeps the flow alive exactly when `KeepsFlow` says so -/

theorem not_ledStatus_of_id {msg : List Byte} {id : Byte} (h : decodeGetMsgId msg = some id)
    (hne : id ≠ msgIdStatus) : ¬ IsLedStatus msg := by
  intro hs
  rw [IsLedStatus, h, Option.some.injEq] at hs
  exact hne hs.1

theorem not_version_of_id {msg : List Byte} {id : Byte} (h : decodeGetMsgId msg = some id)
    (hne : id ≠ msgIdVersion) : ¬ IsVersion msg := by
  intro hv
  rw [IsVersion, h, Option.some.injEq] at hv
  exact hne hv.1

/-- The message taken off the queue matters only if it is a STATUS of an LED_ARRAY. -/
theorem alive_tail {msg : List Byte} {rest to' : List (List Byte)} {sent : Option (List Byte)}
    (h : ¬ IsLedStatus msg) : Alive (msg :: rest) to' sent ↔ Alive rest to' sent := by
  unfold Alive
  simp only [List.mem_cons, exists_eq_or_imp, h, false_or]

theorem mcu_alive_iff {t : FlowState} {msg : List Byte} {rest : List (List Byte)}
    (hq : t.handle.fromMcuQueue = msg :: rest) (ha : InfoAlive t) {h' : Handle}
    (he : handleMcu { t.handle with fromMcuQueue := rest } msg = some h') :
    InfoAlive { t with handle := h', versioned := t.versioned || IsVersion msg } ↔
      (Triggers t msg → queueSize t msg < queueSizeLimit ∨
        Alive rest t.handle.toMcuQueue t.sent) := by
  have hafter : ∀ h : Handle, Alive (infoPush h).fromMcuQueue (infoPush h).toMcuQueue t.sent ↔ _ :=
    fun h => alive_infoPush
  cases handleMcu_case he with
  | quiet commands playlistId resume suspend version status =>
    have hno : ¬ Triggers t msg := by
      rintro (⟨hid, -⟩ | ⟨hs, -⟩ | ⟨hv, -⟩)
      · exact resume hid
      · exact status hs
      · exact version hv
    refine iff_of_true ?_ fun htrig => absurd htrig hno
    intro hver hsus
    have hver' : t.versioned = true := by simpa [version] using hver
    have halive := ha hver' hsus
    rw [hq, alive_tail status] at halive
    exact halive
  | suspend hid =>
    refine iff_of_true (fun _ hs => absurd hs (by simp [mcuSuspend])) ?_
    rintro (⟨hr, -⟩ | ⟨hs, -⟩ | ⟨hv, -⟩)
    · rw [hid, Option.some.injEq] at hr
      exact absurd hr (by decide)
    · exact absurd hs (not_ledStatus_of_id hid (by decide))
    · exact absurd hv (not_version_of_id hid (by decide))
  | resume hid =>
    have hv : ¬ IsVersion msg := not_version_of_id hid (by decide)
    have hs : ¬ IsLedStatus msg := not_ledStatus_of_id hid (by decide)
    have htrig : Triggers t msg ↔ t.versioned = true := by simp [Triggers, hid, hs, hv]
    have hsize : queueSize t msg = t.handle.toMcuQueue.length := by simp [queueSize, hv]
    rw [htrig, hsize]
    unfold InfoAlive mcuResume
    dsimp only
    rw [infoPush_suspend, alive_infoPush]
    simp [hv]
  | status hid =>
    have hv : ¬ IsVersion msg := by
      intro hv
      have hid' := hid.1
      rw [hv.1, Option.some.injEq] at hid'
      exact absurd hid' (by decide)
    have hr : decodeGetMsgId msg ≠ some msgIdResume := by
      rw [hid.1]
      decide
    have htrig : Triggers t msg ↔ t.versioned = true ∧ t.handle.suspend = false := by
      simp [Triggers, hid, hv, hr]
    have hsize : queueSize t msg = t.handle.toMcuQueue.length := by simp [queueSize, hv]
    rw [htrig, hsize]
    unfold InfoAlive
    dsimp only
    rw [infoPush_suspend, alive_infoPush]
    constructor
    · rintro h ⟨hver, hsus⟩
      exact (h (by simp [hver]) hsus).imp_left And.right
    · intro h hver hsus
      exact (h ⟨by simpa [hv] using hver, hsus⟩).imp_left fun hroom => ⟨hsus, hroom⟩
  | version hid =>
    have htrig : Triggers t msg ↔ t.handle.suspend = false := by
      have hs : ¬ IsLedStatus msg := not_ledStatus_of_id hid.1 (by decide)
      have hr : decodeGetMsgId msg ≠ some msgIdResume := by
        rw [hid.1]
        decide
      simp [Triggers, hid, hs, hr]
    have hsize : queueSize t msg = t.handle.toMcuQueue.length + 1 := by simp [queueSize, hid]
    have hshake : Alive rest (t.handle.toMcuQueue ++ [encodeJoin serialIdToIgnore msgIdHandshake []])
        t.sent ↔ Alive rest t.handle.toMcuQueue t.sent := by
      have hled : ¬ IsLedArray (encodeJoin serialIdToIgnore msgIdHandshake []) := by decide
      unfold Alive
      simp [List.mem_append, or_and_right, exists_or, hled]
    rw [htrig, hsize]
    unfold InfoAlive
    dsimp only
    rw [infoPush_suspend, alive_infoPush]
    simp only [Handle.push, hshake, List.length_append, List.length_singleton]
    constructor
    · intro h hsus
      exact (h (by simp [hid]) hsus).imp_left And.right
    · intro h _ hsus
      exact (h hsus).imp_left fun hroom => ⟨hsus, hroom⟩

theorem flow_step_iff {t : FlowState} (hn : LedNumbered t.handle.toMcuQueue) (ha : InfoAlive t)
    (e : FlowEvent) : InfoAlive (flowStep t e) ↔ KeepsFlow t e := by
  unfold flowStep
  by_cases hend : t.terminated = true
  · rw [if_pos hend]
    refine iff_of_true ha ?_
    cases e with
    | handleMcu => exact fun _ _ hlive => absurd hend (by simp [hlive])
    | _ => trivial
  rw [if_neg hend]
  cases e with
  | status status => exact iff_of_true ha trivial
  | mcu msg =>
    refine iff_of_true (fun hver hsus => ?_) trivial
    exact (ha hver hsus).mono (List.subset_append_left _ _) (List.Subset.refl _)
  | send =>
    refine iff_of_true ?_ trivial
    dsimp only
    split
    · exact ha
    · rename_i hfree
      rw [not_not] at hfree
      cases hq : t.handle.toMcuQueue with
      | nil => exact ha
      | cons msg rest =>
        intro hver hsus
        have halive := ha hver hsus
        rw [hq, hfree] at halive
        exact alive_send (hn msg (by rw [hq]; exact List.mem_cons_self)) halive
  | answer value =>
    refine iff_of_true ?_ trivial
    dsimp only
    cases hsent : t.sent with
    | none => exact ha
    | some msg =>
      intro hver hsus
      have halive := ha hver hsus
      rw [hsent] at halive
      exact alive_answer value halive
  | handleStatus =>
    refine iff_of_true ?_ trivial
    dsimp only
    cases hq : t.handle.statusQueue with
    | nil => exact ha
    | cons status rest =>
      dsimp only
      cases he : handleStatus { t.handle with statusQueue := rest } status with
      | none => exact ha
      | some handle =>
        obtain ⟨pushed, commands, content, serialId, -, rfl⟩ := handleStatus_answers he
        intro hver hsus
        exact (ha hver hsus).mono (List.Subset.refl _) (List.subset_append_left _ _)
  | handleMcu =>
    dsimp only
    cases hq : t.handle.fromMcuQueue with
    | nil =>
      refine iff_of_true ha fun msg hm => ?_
      rw [hq] at hm
      cases hm
    | cons msg rest =>
      have hcond : KeepsFlow t .handleMcu ↔ (Triggers t msg →
          queueSize t msg < queueSizeLimit ∨ Alive rest t.handle.toMcuQueue t.sent) := by
        unfold KeepsFlow
        rw [hq]
        simp [hend]
      rw [hcond]
      dsimp only
      cases he : handleMcu { t.handle with fromMcuQueue := rest } msg with
      | some handle => exact mcu_alive_iff hq ha he
      | none =>
        obtain ⟨hid, hv⟩ := handleMcu_none he
        refine iff_of_true ha ?_
        rintro (⟨hr, -⟩ | ⟨hs, -⟩ | ⟨hv', -⟩)
        · rw [hid, Option.some.injEq] at hr
          exact absurd hr (by decide)
        · exact absurd hs (not_ledStatus_of_id hid (by decide))
        · exact absurd hv' hv

/-! ### Whole runs -/

def flowInit (trackRegexList : List (Text → Option Text)) (firstByte : Byte) : FlowState :=
  ⟨handleInit trackRegexList firstByte, none, false, false⟩

/-- From the start of the daemon, the text stream stays alive throughout a run
exactly when no trigger is lost to a full queue with no LED_ARRAY under way. -/
theorem info_alive_iff (trackRegexList : List (Text → Option Text)) (firstByte : Byte)
    (es : List FlowEvent) :
    Throughout flowStep InfoAlive (flowInit trackRegexList firstByte) es ↔
      Along flowStep KeepsFlow (flowInit trackRegexList firstByte) es := by
  apply throughout_iff_along (I := fun t => LedNumbered t.handle.toMcuQueue)
  · exact fun t e hn _ _ => numbered_step hn e
  · exact fun t e hn ha => flow_step_iff hn ha e
  · intro msg hm
    cases hm
  · intro hver
    cases hver

def answered (id : CommandId) (out : String) : List FlowEvent :=
  [.status ⟨id, Status.good, text out⟩, .handleStatus]

/-- The first text goes out and is answered while the menu is open. The values
the menu asks for and the clock are queued behind one another when it closes. -/
def closedBusy : List FlowEvent :=
  answered .streamTrackName "Hi" ++
    [FlowEvent.mcu (encodeJoin 0 msgIdVersion [protocolVersion]), .handleMcu, .send,
      .mcu (encodeJoin 0 msgIdSuspend []), .handleMcu] ++
    (List.replicate 2 [FlowEvent.send, .answer statusSuccess, .handleMcu]).flatten ++
    answered .mpcVolumeGet "50-0-100" ++ answered .mpcTrackGet "1-1-9" ++
    answered .mpcPlaylistGet "0-1-3" ++ answered .streamClock "10:00" ++
    [FlowEvent.send, .mcu (encodeJoin 0 msgIdResume []), .handleMcu]

theorem resume_swallowed : ¬ InfoAlive (run flowStep (flowInit [] 0) closedBusy) := by
  unfold InfoAlive
  decide +kernel

end LedServer.Pi
