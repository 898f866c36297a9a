import LedServer.PiHandle

set_option autoImplicit false

/-!
# What a step of `handle_t` can do

Each function of `handle.cpp` appends to two queues and changes few of the other
variables; the cases of `handle_mcu` and `handle_status` say which.
-/
namespace LedServer.Pi
open Mcu

def IsLedArray (msg : List Byte) : Prop := decodeGetMsgId msg = some msgIdLedArray

instance (msg : List Byte) : Decidable (IsLedArray msg) := inferInstanceAs (Decidable (_ = _))

/-- The STATUS of an LED_ARRAY. -/
def IsLedStatus (msg : List Byte) : Prop :=
  decodeGetMsgId msg = some msgIdStatus ∧ (decodeSplit2 msg).map Prod.snd = some msgIdLedArray

instance (msg : List Byte) : Decidable (IsLedStatus msg) := inferInstanceAs (Decidable (_ ∧ _))

/-- A VERSION that is accepted. -/
def IsVersion (msg : List Byte) : Prop :=
  decodeGetMsgId msg = some msgIdVersion ∧ decodeSplit1 msg = some protocolVersion

instance (msg : List Byte) : Decidable (IsVersion msg) := inferInstanceAs (Decidable (_ ∧ _))

theorem isLedArray_join (serial : Byte) (payload : List Byte) :
    IsLedArray (encodeJoin serial msgIdLedArray payload) := rfl

/-! ### `info_push` -/

theorem pushNext_foldl (msgId : Byte) (payloads : List (List Byte)) (h : Handle) :
    ∃ pushed serialId, pushed.length = payloads.length ∧
      (∀ msg ∈ pushed, ∃ serial, ∃ payload ∈ payloads, msg = encodeJoin serial msgId payload ∧
        serial ≠ serialIdToIgnore) ∧
      payloads.foldl (fun h payload => h.pushNext msgId payload) h =
        { h with toMcuQueue := h.toMcuQueue ++ pushed, serialId := serialId } := by
  induction payloads generalizing h with
  | nil => exact ⟨[], h.serialId, rfl, by simp, by simp⟩
  | cons payload payloads ih =>
    obtain ⟨pushed, serialId, hlength, hjoin, he⟩ := ih (h.pushNext msgId payload)
    refine ⟨encodeJoin (mcuIdGet h.serialId) msgId payload :: pushed, serialId, ?_, ?_, ?_⟩
    · rw [List.length_cons, List.length_cons, hlength]
    · intro msg hm
      rcases List.mem_cons.mp hm with rfl | hm
      · exact ⟨_, payload, List.mem_cons_self, rfl, mcuIdGet_ne _⟩
      · obtain ⟨serial, payload', hp, hjoin'⟩ := hjoin msg hm
        exact ⟨serial, payload', List.mem_cons_of_mem payload hp, hjoin'⟩
    · rw [List.foldl_cons, he]
      simp only [Handle.pushNext, Handle.push, List.append_assoc, List.singleton_append]

theorem ledArrays_ne_nil {matrix : Matrix} (h : matrix ≠ []) : ledArrays matrix ≠ [] := by
  have hpos : 0 < matrix.length := List.length_pos_iff.mpr h
  unfold ledArrays
  by_cases hrest : matrix.length % ledArraySize > 0
  · rw [if_pos hrest]
    simp
  · have hfull : matrix.length / ledArraySize ≠ 0 := by
      unfold ledArraySize at *
      omega
    rw [if_neg hrest, List.append_nil]
    simp only [ne_eq, List.map_eq_nil_iff, List.range_eq_nil]
    exact hfull

theorem ledArrays_length {matrix payload : Matrix} (h : payload ∈ ledArrays matrix) :
    payload.length ≤ ledArraySize := by
  unfold ledArrays at h
  rcases List.mem_append.mp h with h | h
  · obtain ⟨i, -, rfl⟩ := List.mem_map.mp h
    exact List.length_take_le _ _
  · split at h
    · rw [List.mem_singleton.mp h, List.length_drop]
      unfold ledArraySize at *
      omega
    · cases h

theorem out_same (c : Content) : c.out.1.topInfo = c.topInfo := by
  unfold Content.out
  split
  · rfl
  · split
    · rfl
    · split <;> rfl

/-- It gives up, or makes at least one LED_ARRAY. -/
theorem infoPush_cases (h : Handle) :
    (infoPush h = h ∧ (h.suspend = true ∨ queueSizeLimit ≤ h.toMcuQueue.length)) ∨
      (h.suspend = false ∧ h.toMcuQueue.length < queueSizeLimit ∧
        ∃ pushed content firstByte serialId, pushed ≠ [] ∧
          (∀ msg ∈ pushed, ∃ serial payload, msg = encodeJoin serial msgIdLedArray payload ∧
            serial ≠ serialIdToIgnore ∧ payload.length ≤ ledArraySize) ∧
          content.topInfo = h.content.topInfo ∧
          infoPush h = { h with
            toMcuQueue := h.toMcuQueue ++ pushed
            content := content
            firstByte := firstByte
            serialId := serialId }) := by
  by_cases hno : h.suspend = true ∨ h.toMcuQueue.length ≥ queueSizeLimit
  · exact .inl ⟨if_pos hno, hno⟩
  · obtain ⟨hsuspend, hroom⟩ := not_or.mp hno
    obtain ⟨pushed, serialId, hlength, hjoin, he⟩ := pushNext_foldl msgIdLedArray
      (ledArrays (pixelize h.firstByte (h.content.out.2 ++ [blank])).2)
      { h with
        content := h.content.out.1
        firstByte := (pixelize h.firstByte (h.content.out.2 ++ [blank])).1 }
    refine .inr ⟨by simpa using hsuspend, by omega, pushed, h.content.out.1, _, serialId, ?_,
      ?_, out_same _, (if_neg hno).trans he⟩
    · have hsome := ledArrays_ne_nil (pixelize_blank_ne h.firstByte h.content.out.2)
      rw [← List.length_pos_iff, hlength]
      exact List.length_pos_iff.mpr hsome
    · intro msg hm
      obtain ⟨serial, payload, hp, hjoin', hs⟩ := hjoin msg hm
      exact ⟨serial, payload, hjoin', hs, ledArrays_length hp⟩

theorem infoPush_suspend (h : Handle) : (infoPush h).suspend = h.suspend := by
  rcases infoPush_cases h with ⟨he, -⟩ | ⟨-, -, _, _, _, _, -, -, -, he⟩ <;> rw [he]

theorem infoPush_fromMcuQueue (h : Handle) : (infoPush h).fromMcuQueue = h.fromMcuQueue := by
  rcases infoPush_cases h with ⟨he, -⟩ | ⟨-, -, _, _, _, _, -, -, -, he⟩ <;> rw [he]

theorem infoPush_statusQueue (h : Handle) : (infoPush h).statusQueue = h.statusQueue := by
  rcases infoPush_cases h with ⟨he, -⟩ | ⟨-, -, _, _, _, _, -, -, -, he⟩ <;> rw [he]

theorem infoPush_playlistId (h : Handle) : (infoPush h).playlistId = h.playlistId := by
  rcases infoPush_cases h with ⟨he, -⟩ | ⟨-, -, _, _, _, _, -, -, -, he⟩ <;> rw [he]

theorem infoPush_topInfo (h : Handle) :
    (infoPush h).content.topInfo = h.content.topInfo := by
  rcases infoPush_cases h with ⟨he, -⟩ | ⟨-, -, _, _, _, _, -, -, htop, he⟩
  · rw [he]
  · rw [he]
    exact htop

/-! ### `handle_mcu` -/

/-- A message that is none of those below only issues commands; PARAM_SET may
also move the playlist. -/
inductive McuCase (h : Handle) (msg : List Byte) : Handle → Prop where
  | quiet (commands : List Command) (playlistId : Byte)
      (resume : decodeGetMsgId msg ≠ some msgIdResume)
      (suspend : decodeGetMsgId msg ≠ some msgIdSuspend)
      (version : ¬ IsVersion msg) (status : ¬ IsLedStatus msg) :
      McuCase h msg
        { h with commandQueue := h.commandQueue ++ commands, playlistId := playlistId }
  | resume (hid : decodeGetMsgId msg = some msgIdResume) : McuCase h msg (mcuResume h)
  | suspend (hid : decodeGetMsgId msg = some msgIdSuspend) : McuCase h msg (mcuSuspend h)
  | status (hid : IsLedStatus msg) : McuCase h msg (infoPush h)
  | version (hid : IsVersion msg) :
      McuCase h msg (infoPush (h.push serialIdToIgnore msgIdHandshake []))

/-- Commands are appended, and the playlist may move. -/
def Issues (h h' : Handle) : Prop :=
  ∃ commands playlistId,
    h' = { h with commandQueue := h.commandQueue ++ commands, playlistId := playlistId }

theorem Issues.refl (h : Handle) : Issues h h := ⟨[], h.playlistId, by rw [List.append_nil]⟩

theorem issues_issue (h : Handle) (id : CommandId) (body : Text) (timeout : ℕ) :
    Issues h (h.issue id body timeout) := ⟨[⟨id, body, timeout⟩], h.playlistId, rfl⟩

theorem issues_ite {h a b : Handle} {p : Prop} [Decidable p] (ha : Issues h a) (hb : Issues h b) :
    Issues h (if p then a else b) := by
  split
  · exact ha
  · exact hb

theorem issues_mcuQueryName (h : Handle) (msg : List Byte) : Issues h (mcuQueryName h msg) := by
  unfold mcuQueryName
  cases decodeSplit2 msg with
  | none => exact .refl h
  | some p =>
    exact issues_ite (.refl h) (issues_ite (issues_issue h _ _ _) (issues_issue h _ _ _))

theorem issues_mcuQueryNumber (h : Handle) (msg : List Byte) : Issues h (mcuQueryNumber h msg) := by
  unfold mcuQueryNumber
  cases decodeSplit1 msg with
  | none => exact .refl h
  | some param =>
    exact issues_ite (.refl h) (issues_ite (issues_issue h _ _ _)
      (issues_ite (issues_issue h _ _ _) (issues_issue h _ _ _)))

theorem issues_mcuParamSet (h : Handle) (msg : List Byte) : Issues h (mcuParamSet h msg) := by
  unfold mcuParamSet
  cases decodeSplit3 msg with
  | none => exact .refl h
  | some p =>
    exact issues_ite (.refl h) (issues_ite (issues_issue h _ _ _) (issues_ite (issues_issue h _ _ _)
      (issues_ite ⟨_, _, rfl⟩ (issues_ite (issues_issue h _ _ _) (issues_issue h _ _ _)))))

theorem issues_mcuPoweroff (h : Handle) (msg : List Byte) : Issues h (mcuPoweroff h msg) := by
  unfold mcuPoweroff
  cases decodeSplit1 msg with
  | none => exact .refl h
  | some delay => exact issues_ite (issues_issue h _ _ _) (issues_issue h _ _ _)

theorem isLedStatus_iff (msg : List Byte) :
    IsLedStatus msg ↔ decodeGetMsgId msg = some msgIdStatus ∧
      ∃ status, decodeSplit2 msg = some (status, msgIdLedArray) := by
  unfold IsLedStatus
  rw [Option.map_eq_some_iff]
  constructor
  · rintro ⟨hid, ⟨status, src⟩, hp, rfl⟩
    exact ⟨hid, status, hp⟩
  · rintro ⟨hid, status, hp⟩
    exact ⟨hid, _, hp, rfl⟩

/-- A message with none of the four ids is quiet. -/
theorem McuCase.of_issues {h h' : Handle} {msg : List Byte} (hi : Issues h h')
    (resume : decodeGetMsgId msg ≠ some msgIdResume)
    (suspend : decodeGetMsgId msg ≠ some msgIdSuspend)
    (version : ¬ IsVersion msg) (status : ¬ IsLedStatus msg) : McuCase h msg h' := by
  obtain ⟨commands, playlistId, rfl⟩ := hi
  exact .quiet commands playlistId resume suspend version status

theorem handleMcu_case {h h' : Handle} {msg : List Byte} (he : handleMcu h msg = some h') :
    McuCase h msg h' := by
  unfold handleMcu at he
  cases hid : decodeGetMsgId msg with
  | none =>
    have hnot : ∀ id, decodeGetMsgId msg ≠ some id := by simp [hid]
    simp only [hid, Option.some.injEq] at he
    subst he
    exact .of_issues (.refl h) (hnot _) (hnot _) (fun hv => hnot _ hv.1) fun hs => hnot _ hs.1
  | some msgId =>
    simp only [hid] at he
    have hnot : ∀ id, msgId ≠ id → decodeGetMsgId msg ≠ some id := by
      intro id hne hsome
      rw [hid, Option.some.injEq] at hsome
      exact hne hsome
    -- a message whose id is none of those that touch the info flow
    have hquiet : Issues h h' → msgId ≠ msgIdResume → msgId ≠ msgIdSuspend →
        msgId ≠ msgIdVersion → msgId ≠ msgIdStatus → McuCase h msg h' := by
      intro hi h1 h2 h3 h4
      exact .of_issues hi (hnot _ h1) (hnot _ h2) (fun hv => hnot _ h3 hv.1) fun hs => hnot _ h4 hs.1
    by_cases hset : msgId = msgIdParamSet
    · rw [if_pos hset, Option.some.injEq] at he
      rw [← he] at hquiet ⊢
      apply hquiet (issues_mcuParamSet h msg) <;> rw [hset] <;> decide
    rw [if_neg hset] at he
    by_cases hpoweroff : msgId = msgIdPoweroff
    · rw [if_pos hpoweroff, Option.some.injEq] at he
      rw [← he] at hquiet ⊢
      apply hquiet (issues_mcuPoweroff h msg) <;> rw [hpoweroff] <;> decide
    rw [if_neg hpoweroff] at he
    by_cases hname : msgId = msgIdQueryName
    · rw [if_pos hname, Option.some.injEq] at he
      rw [← he] at hquiet ⊢
      apply hquiet (issues_mcuQueryName h msg) <;> rw [hname] <;> decide
    rw [if_neg hname] at he
    by_cases hnumber : msgId = msgIdQueryNumber
    · rw [if_pos hnumber, Option.some.injEq] at he
      rw [← he] at hquiet ⊢
      apply hquiet (issues_mcuQueryNumber h msg) <;> rw [hnumber] <;> decide
    rw [if_neg hnumber] at he
    by_cases hreboot : msgId = msgIdReboot
    · rw [if_pos hreboot, Option.some.injEq] at he
      rw [← he] at hquiet ⊢
      apply hquiet (issues_issue h _ _ _) <;> rw [hreboot] <;> decide
    rw [if_neg hreboot] at he
    by_cases hresume : msgId = msgIdResume
    · rw [if_pos hresume, Option.some.injEq] at he
      rw [← he]
      exact .resume (by rw [hid, hresume])
    rw [if_neg hresume] at he
    by_cases hstatus : msgId = msgIdStatus
    · rw [if_pos hstatus, Option.some.injEq] at he
      have hid' : decodeGetMsgId msg = some msgIdStatus := by rw [hid, hstatus]
      by_cases hled : IsLedStatus msg
      · obtain ⟨-, status, hsplit⟩ := (isLedStatus_iff msg).mp hled
        have hpush : mcuStatus h msg = infoPush h := by
          unfold mcuStatus
          rw [hsplit]
          exact if_pos rfl
        rw [← he, hpush]
        exact .status hled
      · have hstay : mcuStatus h msg = h := by
          unfold mcuStatus
          cases hsplit : decodeSplit2 msg with
          | none => rfl
          | some p =>
            refine if_neg fun hsrc => hled ((isLedStatus_iff msg).mpr ⟨hid', p.1, ?_⟩)
            rw [hsplit, ← hsrc]
        rw [← he, hstay]
        apply McuCase.of_issues (.refl h) (hnot _ ?_) (hnot _ ?_) (fun hv => hnot _ ?_ hv.1) hled
        all_goals rw [hstatus]; decide
    rw [if_neg hstatus] at he
    by_cases hsuspend : msgId = msgIdSuspend
    · rw [if_pos hsuspend, Option.some.injEq] at he
      rw [← he]
      exact .suspend (by rw [hid, hsuspend])
    rw [if_neg hsuspend] at he
    by_cases hversion : msgId = msgIdVersion
    · rw [if_pos hversion] at he
      unfold mcuVersion at he
      cases hsplit : decodeSplit1 msg with
      | none =>
        simp only [hsplit, Option.some.injEq] at he
        subst he
        apply McuCase.of_issues (.refl h) (hnot _ hresume) (hnot _ hsuspend)
        · intro hv
          rw [IsVersion, hsplit] at hv
          exact absurd hv.2 (by simp)
        · exact fun hs => hnot _ hstatus hs.1
      | some version =>
        simp only [hsplit] at he
        by_cases hother : version ≠ protocolVersion
        · rw [if_pos hother] at he
          cases he
        · rw [if_neg hother, Option.some.injEq] at he
          rw [not_not] at hother
          rw [← he]
          exact .version ⟨by rw [hid, hversion], by rw [hsplit, hother]⟩
    rw [if_neg hversion, Option.some.injEq] at he
    rw [← he] at hquiet ⊢
    exact hquiet (.refl h) hresume hsuspend hversion hstatus

theorem handleMcu_fromMcuQueue {h h' : Handle} {msg : List Byte} (he : handleMcu h msg = some h') :
    h'.fromMcuQueue = h.fromMcuQueue := by
  cases handleMcu_case he with
  | quiet => rfl
  | resume => exact infoPush_fromMcuQueue _
  | suspend => rfl
  | status => exact infoPush_fromMcuQueue h
  | version => exact infoPush_fromMcuQueue _

theorem handleMcu_statusQueue {h h' : Handle} {msg : List Byte} (he : handleMcu h msg = some h') :
    h'.statusQueue = h.statusQueue := by
  cases handleMcu_case he with
  | quiet => rfl
  | resume => exact infoPush_statusQueue _
  | suspend => rfl
  | status => exact infoPush_statusQueue h
  | version => exact infoPush_statusQueue _

/-- Only another protocol version ends the program. -/
theorem handleMcu_none {h : Handle} {msg : List Byte} (he : handleMcu h msg = none) :
    decodeGetMsgId msg = some msgIdVersion ∧ ¬ IsVersion msg := by
  unfold handleMcu at he
  cases hid : decodeGetMsgId msg with
  | none => simp [hid] at he
  | some msgId =>
    simp only [hid] at he
    by_cases hversion : msgId = msgIdVersion
    · subst hversion
      refine ⟨rfl, ?_⟩
      rintro ⟨-, hsplit⟩
      have hok : mcuVersion h msg = some (infoPush (h.push serialIdToIgnore msgIdHandshake [])) := by
        unfold mcuVersion
        rw [hsplit]
        exact if_neg (by simp)
      rw [hok] at he
      simp [msgIdParamSet, msgIdPoweroff, msgIdQueryName, msgIdQueryNumber, msgIdReboot,
        msgIdResume, msgIdStatus, msgIdSuspend, msgIdVersion] at he
    · rw [if_neg hversion] at he
      split_ifs at he

/-! ### `handle_status` -/

/-- What a status comes to: nothing but a command, a number, a name, or new content. -/
inductive StatusCase (h : Handle) (status : Status) : Handle → Prop where
  | quiet (commands : List Command) :
      StatusCase h status { h with commandQueue := h.commandQueue ++ commands }
  | number (param value min max : Byte) (hvalue : param = parameterPlaylist → value = h.playlistId) :
      StatusCase h status (h.pushNext msgIdQueryNumber [param, value, min, max])
  | name (parameter id : Byte) :
      StatusCase h status ((contentIn h status).pushNext msgIdQueryName [parameter, id])
  | content (playlist : status.id ≠ .mpcPlaylistName) (track : status.id ≠ .mpcTrackName) :
      StatusCase h status (contentIn h status)

theorem StatusCase.same (h : Handle) (status : Status) : StatusCase h status h := by
  have hquiet : StatusCase h status { h with commandQueue := h.commandQueue ++ [] } := .quiet []
  rwa [List.append_nil] at hquiet

theorem handleNumber_case {h h' : Handle} {status : Status}
    (he : handleNumber h status = some h') : StatusCase h status h' := by
  unfold handleNumber at he
  cases hinfo : splitInfo status.out with
  | thrown => simp [hinfo] at he
  | failed =>
    simp only [hinfo, Option.some.injEq] at he
    rw [← he]
    exact .same h status
  | ok info =>
    simp only [hinfo, Option.some.injEq] at he
    rw [← he]
    exact .number _ _ _ _ fun hp => if_pos hp

theorem handleName_case (h : Handle) (status : Status) :
    StatusCase h status (handleName h status) := by
  unfold handleName
  cases (splitToUint8 status.out).1 with
  | none => exact .same h status
  | some id => exact .name _ _

theorem handleStatus_case {h h' : Handle} {status : Status}
    (he : handleStatus h status = some h') : StatusCase h status h' := by
  unfold handleStatus at he
  by_cases hbad : status.value ≠ Status.good
  · rw [if_pos hbad, Option.some.injEq] at he
    rw [← he]
    exact .same h status
  rw [if_neg hbad] at he
  by_cases hsystem : status.id = .streamSystem ∧ (filterSystem h status.out).2 = true
  · rw [if_pos hsystem, Option.some.injEq] at he
    rw [← he]
    unfold filterSystem
    cases matchSystem status.out with
    | none => exact .same h status
    | some p =>
      dsimp only
      split
      · exact .quiet _
      · exact .same h status
  rw [if_neg hsystem] at he
  cases hid : status.id <;> rw [hid] at he <;> first
    | exact handleNumber_case he
    | (rw [Option.some.injEq] at he
       rw [← he]
       first
         | exact handleName_case h status
         | exact .same h status
         | exact .content (by rw [hid]; decide) (by rw [hid]; decide))

theorem contentIn_queues (h : Handle) (status : Status) :
    (contentIn h status).fromMcuQueue = h.fromMcuQueue ∧
      (contentIn h status).statusQueue = h.statusQueue := by
  unfold contentIn
  dsimp only
  split <;> exact ⟨rfl, rfl⟩

/-- `handle_status` pops nothing more and pushes to the other threads only. -/
theorem handleStatus_queues {h h' : Handle} {status : Status}
    (he : handleStatus h status = some h') :
    h'.fromMcuQueue = h.fromMcuQueue ∧ h'.statusQueue = h.statusQueue := by
  cases handleStatus_case he with
  | quiet => exact ⟨rfl, rfl⟩
  | number => exact ⟨rfl, rfl⟩
  | name => exact contentIn_queues h status
  | content => exact contentIn_queues h status

/-- A message that the AVR answers. -/
def Numbered (msg : List Byte) : Prop :=
  ∃ serial msgId payload, msg = encodeJoin serial msgId payload ∧ serial ≠ serialIdToIgnore

/-- What a status does: answers and SYNC_CLOCK are pushed, a command may be
issued, the content changes. -/
def Answers (h h' : Handle) : Prop :=
  ∃ pushed commands content serialId, (∀ msg ∈ pushed, Numbered msg) ∧ h' = { h with
    toMcuQueue := h.toMcuQueue ++ pushed
    commandQueue := h.commandQueue ++ commands
    content := content
    serialId := serialId }

theorem Answers.trans {h₁ h₂ h₃ : Handle} (h : Answers h₁ h₂) (h' : Answers h₂ h₃) :
    Answers h₁ h₃ := by
  obtain ⟨pushed, commands, content, serialId, hn, rfl⟩ := h
  obtain ⟨pushed', commands', content', serialId', hn', rfl⟩ := h'
  refine ⟨pushed ++ pushed', commands ++ commands', content', serialId', ?_,
    by simp only [List.append_assoc]⟩
  intro msg hm
  exact (List.mem_append.mp hm).elim (hn msg) (hn' msg)

theorem answers_pushNext (h : Handle) (msgId : Byte) (payload : List Byte) :
    Answers h (h.pushNext msgId payload) := by
  refine ⟨[_], [], h.content, mcuIdGet h.serialId, ?_, by rw [List.append_nil]; rfl⟩
  intro msg hm
  rw [List.mem_singleton.mp hm]
  exact ⟨_, _, _, rfl, mcuIdGet_ne _⟩

theorem answers_contentIn (h : Handle) (status : Status) : Answers h (contentIn h status) := by
  have hcontent : Answers h { h with content := (h.content.input status).1 } :=
    ⟨[], [], (h.content.input status).1, h.serialId, by simp, by simp only [List.append_nil]⟩
  unfold contentIn
  dsimp only
  cases (h.content.input status).2 with
  | none => exact hcontent
  | some clock => exact hcontent.trans (answers_pushNext _ _ _)

theorem handleStatus_answers {h h' : Handle} {status : Status}
    (he : handleStatus h status = some h') : Answers h h' := by
  cases handleStatus_case he with
  | quiet commands => exact ⟨[], commands, h.content, h.serialId, by simp, by rw [List.append_nil]⟩
  | number param value min max => exact answers_pushNext h _ _
  | name parameter id => exact (answers_contentIn h status).trans (answers_pushNext _ _ _)
  | content => exact answers_contentIn h status

/-! ### What is pushed to the AVR -/

/-- HANDSHAKE is not answered and has no number, all else is answered and has one. -/
structure Push where
  message : Message
  size : message.payload.length ≤ ledArraySize
  notIdle : message.id ≠ msgIdIdle
  serial : message.serial = serialIdToIgnore ↔ message.id = msgIdHandshake

def Posts (h h' : Handle) : Prop :=
  ∃ ps : List Push, h'.toMcuQueue = h.toMcuQueue ++ ps.map fun p => p.message.body

theorem Posts.refl (h : Handle) : Posts h h := ⟨[], (List.append_nil _).symm⟩

theorem Posts.trans {h₁ h₂ h₃ : Handle} (h : Posts h₁ h₂) (h' : Posts h₂ h₃) : Posts h₁ h₃ := by
  obtain ⟨ps, he⟩ := h
  obtain ⟨ps', he'⟩ := h'
  exact ⟨ps ++ ps', by rw [he', he, List.map_append, List.append_assoc]⟩

theorem posts_pushNext (h : Handle) {msgId : Byte} {payload : List Byte}
    (hsize : payload.length ≤ ledArraySize) (hidle : msgId ≠ msgIdIdle)
    (hshake : msgId ≠ msgIdHandshake) : Posts h (h.pushNext msgId payload) :=
  ⟨[⟨⟨mcuIdGet h.serialId, msgId, payload⟩, hsize, hidle,
    iff_of_false (mcuIdGet_ne _) hshake⟩], rfl⟩

theorem posts_infoPush (h : Handle) : Posts h (infoPush h) := by
  rcases infoPush_cases h with ⟨he, -⟩ | ⟨-, -, pushed, _, _, _, -, hjoin, -, he⟩
  · rw [he]
    exact .refl h
  · rw [he]
    have hpush : ∀ msg ∈ pushed, ∃ p : Push, p.message.body = msg := by
      intro msg hm
      obtain ⟨serial, payload, rfl, hserial, hsize⟩ := hjoin msg hm
      exact ⟨⟨⟨serial, msgIdLedArray, payload⟩, hsize, show msgIdLedArray ≠ msgIdIdle by decide,
        iff_of_false hserial (show msgIdLedArray ≠ msgIdHandshake by decide)⟩, rfl⟩
    obtain ⟨ps, hps⟩ : ∃ ps : List Push, ps.map (fun p => p.message.body) = pushed := by
      choose p hp using hpush
      exact ⟨pushed.attach.map fun m => p m.1 m.2, by simp [hp]⟩
    exact ⟨ps, by rw [hps]⟩

theorem posts_contentIn (h : Handle) (status : Status) : Posts h (contentIn h status) := by
  unfold contentIn
  dsimp only
  cases (h.content.input status).2 with
  | none => exact .refl h
  | some clock =>
    exact posts_pushNext { h with content := (h.content.input status).1 } (by simp [ledArraySize])
      (by decide) (by decide)

/-- `handle_t` pushes nothing else. -/
theorem handleMcu_posts {h h' : Handle} {msg : List Byte} (he : handleMcu h msg = some h') :
    Posts h h' := by
  cases handleMcu_case he with
  | quiet => exact .refl h
  | resume => exact posts_infoPush { h with suspend := false }
  | suspend => exact .refl h
  | status => exact posts_infoPush h
  | version =>
    have hshake : Posts h (h.push serialIdToIgnore msgIdHandshake []) :=
      ⟨[⟨⟨serialIdToIgnore, msgIdHandshake, []⟩, by simp, by decide, by simp⟩], rfl⟩
    exact hshake.trans (posts_infoPush _)

theorem handleStatus_posts {h h' : Handle} {status : Status}
    (he : handleStatus h status = some h') : Posts h h' := by
  cases handleStatus_case he with
  | quiet => exact .refl h
  | number => exact posts_pushNext h (by simp [ledArraySize]) (by decide) (by decide)
  | name =>
    exact (posts_contentIn h status).trans
      (posts_pushNext _ (by simp [ledArraySize]) (by decide) (by decide))
  | content => exact posts_contentIn h status

end LedServer.Pi
