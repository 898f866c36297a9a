import LedServer.ContentRun
import LedServer.PiLedArray

set_option autoImplicit false

/-!
# The texts `info_push` takes

Each step of `handle_t` with the texts it takes out of the content, the system
texts it puts into it, and the columns it pushes.
-/
namespace LedServer.Pi
open Mcu

/-- The columns that LED_ARRAYs carry. -/
def ledColumns (ms : List Message) : List Byte :=
  (ms.filter (·.id = msgIdLedArray)).flatMap Message.payload

theorem ledColumns_append (ms ks : List Message) :
    ledColumns (ms ++ ks) = ledColumns ms ++ ledColumns ks := by
  unfold ledColumns
  rw [List.filter_append, List.flatMap_append]

theorem ledColumns_cons {m : Message} (h : m.id = msgIdLedArray) (ms : List Message) :
    ledColumns (m :: ms) = m.payload ++ ledColumns ms := by
  unfold ledColumns
  rw [List.filter_cons_of_pos (by simp [h]), List.flatMap_cons]

theorem ledColumns_other {m : Message} (h : m.id ≠ msgIdLedArray) (ms : List Message) :
    ledColumns (m :: ms) = ledColumns ms := by
  unfold ledColumns
  rw [List.filter_cons_of_neg (by simp [h])]

/-- The texts as `render_t` gets them, a blank behind each. -/
def runningText (given : List (Source × Text)) : Text := given.flatMap fun p => p.2 ++ [blank]

theorem runningText_append (given more : List (Source × Text)) :
    runningText (given ++ more) = runningText given ++ runningText more := List.flatMap_append

/-- What `info_push` takes. -/
def infoTaken (h : Handle) : List (Source × Text) :=
  if h.suspend = true ∨ h.toMcuQueue.length ≥ queueSizeLimit then []
  else [(h.content.source, h.content.out.2)]

/-- What `handle_mcu` takes. -/
def mcuTakes (h : Handle) (msg : List Byte) : List (Source × Text) :=
  if decodeGetMsgId msg = some msgIdResume then infoTaken { h with suspend := false }
  else if IsLedStatus msg then infoTaken h
  else if IsVersion msg then infoTaken (h.push serialIdToIgnore msgIdHandshake [])
  else []

/-- The system text a status brings into the content; `filter_system` keeps one
kind for itself. -/
def systemLine (status : Status) : List Text :=
  if status.value = Status.good ∧ status.id = .streamSystem ∧
      (matchSystem status.out).map Prod.fst ≠ some (text "mpc play") then [status.out]
  else []

/-- From `h` to `h'` the texts `given` are taken and the system texts `arrived`
come in. -/
structure Gives (h h' : Handle) (given : List (Source × Text)) (arrived : List Text) : Prop where
  pushed : ∃ ps : List Push, h'.toMcuQueue = h.toMcuQueue ++ ps.map (fun p => p.message.body) ∧
    ledColumns (ps.map Push.message) = (pixelize h.firstByte (runningText given)).2
  firstByte : h'.firstByte = (pixelize h.firstByte (runningText given)).1
  middle : givenFrom .middle given ++ h'.content.middleInfo = h.content.middleInfo ++ arrived

theorem Gives.trans {h₁ h₂ h₃ : Handle} {given given' : List (Source × Text)}
    {arrived arrived' : List Text} (h : Gives h₁ h₂ given arrived)
    (h' : Gives h₂ h₃ given' arrived') :
    Gives h₁ h₃ (given ++ given') (arrived ++ arrived') := by
  obtain ⟨ps, hqueue, hcolumns⟩ := h.pushed
  obtain ⟨ps', hqueue', hcolumns'⟩ := h'.pushed
  refine ⟨⟨ps ++ ps', ?_, ?_⟩, ?_, ?_⟩
  · rw [hqueue', hqueue, List.map_append, List.append_assoc]
  · rw [List.map_append, ledColumns_append, hcolumns, hcolumns', h.firstByte, runningText_append,
      pixelize_append]
  · rw [h'.firstByte, h.firstByte, runningText_append, pixelize_append]
  · rw [givenFrom_append, List.append_assoc, h'.middle, ← List.append_assoc, h.middle,
      List.append_assoc]

/-- A step that neither takes a text nor lets one in. -/
theorem Gives.none {h h' : Handle} (ps : List Push)
    (hqueue : h'.toMcuQueue = h.toMcuQueue ++ ps.map fun p => p.message.body)
    (hids : ∀ p ∈ ps, p.message.id ≠ msgIdLedArray) (hfirst : h'.firstByte = h.firstByte)
    (hmiddle : h'.content.middleInfo = h.content.middleInfo) : Gives h h' [] [] := by
  refine ⟨⟨ps, hqueue, ?_⟩, hfirst, ?_⟩
  · have hnone : (ps.map Push.message).filter (·.id = msgIdLedArray) = [] := by
      refine List.filter_eq_nil_iff.mpr fun m hm => ?_
      obtain ⟨p, hp, rfl⟩ := List.mem_map.mp hm
      simpa using hids p hp
    rw [ledColumns, hnone]
    rfl
  · rw [hmiddle, List.append_nil]
    rfl

theorem Gives.refl (h : Handle) : Gives h h [] [] :=
  .none [] (List.append_nil _).symm (by simp) rfl rfl

/-! ### `info_push` -/

/-- The pieces of a matrix as they are pushed. -/
theorem pushNext_pushes (payloads : List Matrix) (hsize : ∀ payload ∈ payloads,
    payload.length ≤ ledArraySize) (h : Handle) :
    ∃ ps : List Push,
      (payloads.foldl (fun h payload => h.pushNext msgIdLedArray payload) h).toMcuQueue =
        h.toMcuQueue ++ ps.map (fun p => p.message.body) ∧
      ledColumns (ps.map Push.message) = payloads.flatten := by
  induction payloads generalizing h with
  | nil => exact ⟨[], (List.append_nil _).symm, rfl⟩
  | cons payload payloads ih =>
    obtain ⟨ps, hqueue, hcolumns⟩ := ih (fun p hp => hsize p (List.mem_cons_of_mem payload hp))
      (h.pushNext msgIdLedArray payload)
    have hnumber : mcuIdGet h.serialId = serialIdToIgnore ↔ msgIdLedArray = msgIdHandshake :=
      iff_of_false (mcuIdGet_ne _) (by decide)
    refine ⟨⟨⟨mcuIdGet h.serialId, msgIdLedArray, payload⟩, hsize payload List.mem_cons_self,
      show msgIdLedArray ≠ msgIdIdle by decide, hnumber⟩ :: ps, ?_, ?_⟩
    · rw [List.foldl_cons, hqueue, List.map_cons, ← List.singleton_append, ← List.append_assoc]
      rfl
    · rw [List.map_cons, ledColumns_cons rfl, hcolumns]
      rfl

theorem gives_infoPush (h : Handle) : Gives h (infoPush h) (infoTaken h) [] := by
  unfold infoPush infoTaken
  by_cases hno : h.suspend = true ∨ h.toMcuQueue.length ≥ queueSizeLimit
  · rw [if_pos hno, if_pos hno]
    exact .refl h
  rw [if_neg hno, if_neg hno]
  dsimp only
  have htext : runningText [(h.content.source, h.content.out.2)] = h.content.out.2 ++ [blank] := by
    unfold runningText
    rw [List.flatMap_singleton]
  have hsize : ∀ payload ∈ ledArrays (pixelize h.firstByte (h.content.out.2 ++ [blank])).2,
      payload.length ≤ ledArraySize := fun payload hp => ledArrays_length hp
  let taken : Handle := { h with
    content := h.content.out.1
    firstByte := (pixelize h.firstByte (h.content.out.2 ++ [blank])).1 }
  obtain ⟨ps, hqueue, hcolumns⟩ := pushNext_pushes _ hsize taken
  obtain ⟨pushed, serialId, -, -, hfields⟩ := pushNext_foldl msgIdLedArray
    (ledArrays (pixelize h.firstByte (h.content.out.2 ++ [blank])).2) taken
  refine ⟨⟨ps, hqueue, ?_⟩, ?_, ?_⟩
  · rw [hcolumns, ledArrays_flatten, htext]
  · rw [htext]
    exact congrArg Handle.firstByte hfields
  · have hcontent := congrArg (fun h' : Handle => h'.content.middleInfo) hfields
    rw [List.append_nil]
    exact (congrArg (givenFrom .middle _ ++ ·) hcontent).trans h.content.out_middle

/-! ### `handle_mcu` -/

theorem handleMcu_gives {h h' : Handle} {msg : List Byte} (he : handleMcu h msg = some h') :
    Gives h h' (mcuTakes h msg) [] := by
  have hresume : IsLedStatus msg → decodeGetMsgId msg ≠ some msgIdResume := by
    rintro ⟨hid, -⟩ hother
    rw [hid] at hother
    cases hother
  have hstatus : decodeGetMsgId msg = some msgIdSuspend → ¬ IsLedStatus msg := by
    rintro hid ⟨hother, -⟩
    rw [hid] at hother
    cases hother
  cases handleMcu_case he with
  | quiet commands playlistId resume suspend version status =>
    rw [mcuTakes, if_neg resume, if_neg status, if_neg version]
    exact .none [] (List.append_nil _).symm (by simp) rfl rfl
  | resume hid =>
    rw [mcuTakes, if_pos hid]
    have hpush := gives_infoPush { h with suspend := false }
    exact ⟨hpush.pushed, hpush.firstByte, hpush.middle⟩
  | suspend hid =>
    have hother : decodeGetMsgId msg ≠ some msgIdResume := by
      rw [hid]
      decide
    have hversion : ¬ IsVersion msg := by
      rintro ⟨hv, -⟩
      rw [hid] at hv
      cases hv
    rw [mcuTakes, if_neg hother, if_neg (hstatus hid), if_neg hversion]
    exact .none [] (List.append_nil _).symm (by simp) rfl rfl
  | status hid =>
    rw [mcuTakes, if_neg (hresume hid), if_pos hid]
    exact gives_infoPush h
  | version hid =>
    have hother : decodeGetMsgId msg ≠ some msgIdResume := by
      rw [hid.1]
      decide
    have hled : ¬ IsLedStatus msg := by
      rintro ⟨hs, -⟩
      rw [hid.1] at hs
      cases hs
    rw [mcuTakes, if_neg hother, if_neg hled, if_pos hid]
    have hshake : Gives h (h.push serialIdToIgnore msgIdHandshake []) [] [] :=
      .none [⟨⟨serialIdToIgnore, msgIdHandshake, []⟩, by simp, by decide, by simp⟩] rfl
        (by simp; decide) rfl rfl
    exact hshake.trans (gives_infoPush _)

/-! ### `handle_status` -/

theorem gives_pushNext (h : Handle) {msgId : Byte} {payload : List Byte}
    (hsize : payload.length ≤ ledArraySize) (hidle : msgId ≠ msgIdIdle)
    (hshake : msgId ≠ msgIdHandshake) (hled : msgId ≠ msgIdLedArray) :
    Gives h (h.pushNext msgId payload) [] [] :=
  .none [⟨⟨mcuIdGet h.serialId, msgId, payload⟩, hsize, hidle,
    iff_of_false (mcuIdGet_ne _) hshake⟩] rfl (by simpa using hled) rfl rfl

/-- A system text among them is put into the content. -/
theorem gives_contentIn (h : Handle) (status : Status) :
    Gives h (contentIn h status) [] (systemText status).toList := by
  have hstored : Gives h { h with content := (h.content.input status).1 } []
      (systemText status).toList :=
    ⟨⟨[], (List.append_nil _).symm, rfl⟩, rfl, h.content.input_middle status⟩
  unfold contentIn
  dsimp only
  cases (h.content.input status).2 with
  | none => exact hstored
  | some clock =>
    have hclock := hstored.trans (gives_pushNext { h with content := (h.content.input status).1 }
      (show [clock.1, clock.2].length ≤ ledArraySize by simp [ledArraySize])
      (show msgIdSyncClock ≠ msgIdIdle by decide) (by decide) (by decide))
    rw [List.append_nil, List.append_nil] at hclock
    exact hclock

theorem filterSystem_snd (h : Handle) (info : Text) :
    (filterSystem h info).2 = true ↔ (matchSystem info).map Prod.fst = some (text "mpc play") := by
  unfold filterSystem
  cases matchSystem info with
  | none => simp
  | some p =>
    dsimp only
    rw [Option.map_some, Option.some.injEq]
    split_ifs with hplay <;> simp [hplay]

theorem filterSystem_gives (h : Handle) (info : Text) : Gives h (filterSystem h info).1 [] [] := by
  unfold filterSystem
  cases matchSystem info with
  | none => exact .refl h
  | some p =>
    dsimp only
    split_ifs
    · exact .none [] (List.append_nil _).symm (by simp) rfl rfl
    · exact .refl h

theorem handleStatus_gives {h h' : Handle} {status : Status}
    (he : handleStatus h status = some h') : Gives h h' [] (systemLine status) := by
  unfold handleStatus at he
  by_cases hbad : status.value ≠ Status.good
  · rw [if_pos hbad, Option.some.injEq] at he
    rw [systemLine, if_neg fun hline => hbad hline.1, ← he]
    exact .refl h
  rw [if_neg hbad] at he
  rw [not_not] at hbad
  by_cases hsystem : status.id = .streamSystem ∧ (filterSystem h status.out).2 = true
  · rw [if_pos hsystem, Option.some.injEq] at he
    have hplay := (filterSystem_snd h status.out).mp hsystem.2
    rw [systemLine, if_neg fun hline => hline.2.2 hplay, ← he]
    exact filterSystem_gives h status.out
  rw [if_neg hsystem] at he
  by_cases hid : status.id = .streamSystem
  · have hline : systemLine status = (systemText status).toList := by
      have hkept : (matchSystem status.out).map Prod.fst ≠ some (text "mpc play") := fun hplay =>
        hsystem ⟨hid, (filterSystem_snd h status.out).mpr hplay⟩
      rw [systemLine, if_pos ⟨hbad, hid, hkept⟩, systemText, if_pos hid]
      rfl
    rw [hid] at he
    rw [hline, ← Option.some.inj he]
    exact gives_contentIn h status
  · have hnone : systemText status = none := if_neg hid
    have hcontent := gives_contentIn h status
    rw [hnone, Option.toList_none] at hcontent
    rw [systemLine, if_neg fun hline => hid hline.2.1]
    have hcase : StatusCase h status h' := by
      refine handleStatus_case ?_
      unfold handleStatus
      rw [if_neg (not_not.mpr hbad), if_neg hsystem]
      exact he
    cases hcase with
    | quiet commands => exact .none [] (List.append_nil _).symm (by simp) rfl rfl
    | number => exact gives_pushNext h (by simp [ledArraySize]) (by decide) (by decide) (by decide)
    | name =>
      exact hcontent.trans
        (gives_pushNext _ (by simp [ledArraySize]) (by decide) (by decide) (by decide))
    | content => exact hcontent

end LedServer.Pi
