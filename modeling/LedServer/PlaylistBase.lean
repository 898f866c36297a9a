import LedServer.AvrPlaylist
import LedServer.TopInfo

set_option autoImplicit false

/-!
# `param_old` and `m_playlist_id`

PARAM_SET carries a distance. It leads to the playlist that is selected if the
Pi applies it to the one it has been computed from.
-/
namespace LedServer
open LedServer.Pi LedServer.Mcu Machine

/-- What `decode` makes of a message. -/
def messageOf : List Byte → Message
  | serial :: id :: payload => ⟨serial, id, payload⟩
  | _ => ⟨serialIdToIgnore, msgIdEmpty, []⟩

def isAimMsg (msg : List Byte) : Bool := Avr.isAim (messageOf msg)

/-- What a message makes of `m_playlist_id`. -/
def playlistStep (playlistId : Byte) (msg : List Byte) : Byte :=
  if isAimMsg msg = true then
    match decodeSplit3 msg with
    | none => playlistId
    | some (_, positive, delta) =>
      if positive ≠ parameterPositive ∧ positive ≠ parameterNegative then playlistId
      else if newPlaylistId playlistId positive delta > 0 then
        newPlaylistId playlistId positive delta
      else playlistId
  else playlistId

/-- `m_playlist_id` once all that is on its way up has been handled. -/
def Composed.pendingPlaylist (t : Composed) : Byte := t.up.foldl playlistStep t.handle.playlistId

/-! ### What is kept of a run -/

/-- A PARAM_SET that has been handled: `param_old` and `param_new` when the menu
was closed, and `m_playlist_id` before and after. -/
structure Landing where
  base : Byte
  destination : Byte
  msg : List Byte
  before : Byte
  after : Byte

/-- The claim about one PARAM_SET. -/
def Landing.Hits (l : Landing) : Prop :=
  0 < l.destination → l.after = l.destination ∧ l.before = l.base ∧
    ∀ param delta, decodeSplit3 l.msg = some (param, parameterPositive, delta) →
      l.before.toNat + delta.toNat < 2 ^ 8

/-- `aims` holds `param_old` and `param_new` for each PARAM_SET on its way up. -/
structure Aimed where
  system : Composed
  aims : List (Byte × Byte)
  landed : List Landing

namespace Aimed

/-- The claim about one state. -/
def Hit (t : Aimed) : Prop := ∀ l ∈ t.landed, l.Hits

/-- An entry for each PARAM_SET that a step of the AVR has put into `write_buf`. -/
def noted (t t' : Composed) : List (Byte × Byte) :=
  (((t'.avr.state.link.written.drop t.avr.state.link.written.length).map
    (·.drop 2)).filter isAimMsg).map
      fun _ => (t.avr.state.menu.paramOld .playlist, t.avr.state.menu.paramNew .playlist)

/-- `handle_mcu` is about to handle a message. -/
def land (t : Aimed) (system : Composed) : Aimed :=
  match t.system.handle.fromMcuQueue, t.aims with
  | msg :: _, (base, destination) :: aims =>
    if t.system.terminated = false ∧ isAimMsg msg = true then
      { system := system
        aims := aims
        landed := t.landed ++ [{
          base := base
          destination := destination
          msg := msg
          before := t.system.handle.playlistId
          after := system.handle.playlistId }] }
    else { t with system := system }
  | _, _ => { t with system := system }

end Aimed

def aimedStep (t : Aimed) (e : ComposedEvent) : Aimed :=
  let system := composedStep t.system e
  match e with
  | .avr _ | .decodeStep =>
    { t with system := system, aims := t.aims ++ Aimed.noted t.system system }
  | .handleMcu => t.land system
  | .restart _ _ => { t with system := system, aims := [] }
  | _ => { t with system := system }

def aimedInit : Aimed := ⟨composedInit, [], []⟩

/-- A value that comes while the menu is open, or over which a name opens it, is
the one the Pi has come to when it handles the next PARAM_SET. -/
def KeepsBase (t : Composed) : ComposedEvent → Prop
  | .decodeStep => ∀ s ∈ Avr.invoked t.avr,
      (Avr.IsNumber s (Avr.decodedMessage s.decoder) → s.menu.state ≠ .idle →
        Avr.inByte s.decoder 1 = t.pendingPlaylist) ∧
        (Avr.OpensTag s (Avr.decodedMessage s.decoder) → s.menu.state = .idle →
          ∀ base ∈ Avr.baseOf s.menu, base = t.pendingPlaylist)
  | .restart _ _ => t.avr.state.menu.state ≠ .idle →
      ∀ base ∈ Avr.baseOf t.avr.state.menu, base = 0
  | _ => True

instance (t : Composed) (e : ComposedEvent) : Decidable (KeepsBase t e) :=
  match e with
  | .decodeStep => inferInstanceAs (Decidable (∀ s ∈ Avr.invoked t.avr, _))
  | .restart _ _ => inferInstanceAs (Decidable (_ → _))
  | .avr _ | .exchange | .pi | .interrupt _ | .handleMcu | .handleStatus | .execute
  | .complete _ _ _ | .timeout _ | .line _ _ => .isTrue trivial

/-! ### A distance applied to its base -/

theorem isAimMsg_body (m : Message) : isAimMsg m.body = Avr.isAim m := rfl

theorem playlistStep_other {playlistId : Byte} {msg : List Byte} (h : isAimMsg msg = false) :
    playlistStep playlistId msg = playlistId := if_neg (by simp [h])

/-- Only a PARAM_SET for the playlist counts. -/
theorem foldl_filter_aim (playlistId : Byte) (msgs : List (List Byte)) :
    (msgs.filter isAimMsg).foldl playlistStep playlistId = msgs.foldl playlistStep playlistId := by
  induction msgs generalizing playlistId with
  | nil => rfl
  | cons msg msgs ih =>
    by_cases h : isAimMsg msg = true
    · rw [List.filter_cons_of_pos h, List.foldl_cons, List.foldl_cons, ih]
    · rw [List.filter_cons_of_neg h, List.foldl_cons, ih, playlistStep_other (by simpa using h)]

/-- PARAM_SET from one playlist to another. -/
def aimMessage (base destination : Byte) : Message :=
  Avr.paramSetMessage parameterPlaylist (Avr.getSignAbs base destination).1
    (Avr.getSignAbs base destination).2

theorem getSignAbs_cases (base destination : Byte) :
    (base.toNat ≤ destination.toNat ∧
      Avr.getSignAbs base destination = (parameterPositive, destination - base)) ∨
    (destination.toNat < base.toNat ∧
      Avr.getSignAbs base destination = (parameterNegative, base - destination)) := by
  unfold Avr.getSignAbs
  by_cases hsame : base = destination
  · subst hsame
    rw [if_pos rfl, BitVec.sub_self]
    exact .inl ⟨Nat.le_refl _, rfl⟩
  rw [if_neg hsame]
  by_cases hless : base < destination
  · rw [if_pos hless]
    exact .inl ⟨by bv_omega, rfl⟩
  · rw [if_neg hless]
    exact .inr ⟨by bv_omega, rfl⟩

theorem newPlaylistId_aim (base destination : Byte) :
    newPlaylistId base (Avr.getSignAbs base destination).1 (Avr.getSignAbs base destination).2 =
      destination := by
  have hsigns : parameterNegative ≠ parameterPositive := by decide
  unfold newPlaylistId
  rcases getSignAbs_cases base destination with ⟨hle, he⟩ | ⟨hlt, he⟩
  · rw [he, if_pos rfl]
    bv_omega
  · rw [he, if_neg hsigns]
    dsimp only
    split
    · bv_omega
    · bv_omega

theorem playlistStep_aim (base destination : Byte) :
    playlistStep base (aimMessage base destination).body =
      if destination > 0 then destination else base := by
  have hsign : ¬ ((Avr.getSignAbs base destination).1 ≠ parameterPositive ∧
      (Avr.getSignAbs base destination).1 ≠ parameterNegative) := by
    rcases getSignAbs_cases base destination with ⟨-, he⟩ | ⟨-, he⟩
    · rw [he]
      exact fun h => h.1 rfl
    · rw [he]
      exact fun h => h.2 rfl
  have hstep : playlistStep base (aimMessage base destination).body =
      if (Avr.getSignAbs base destination).1 ≠ parameterPositive ∧
          (Avr.getSignAbs base destination).1 ≠ parameterNegative then base
      else if newPlaylistId base (Avr.getSignAbs base destination).1
          (Avr.getSignAbs base destination).2 > 0 then
        newPlaylistId base (Avr.getSignAbs base destination).1 (Avr.getSignAbs base destination).2
      else base := rfl
  rw [hstep, if_neg hsign, newPlaylistId_aim]

/-- The sum of 8 bits does not wrap. -/
theorem aim_no_wrap (base destination : Byte) {param delta : Byte}
    (h : decodeSplit3 (aimMessage base destination).body = some (param, parameterPositive, delta)) :
    base.toNat + delta.toNat < 2 ^ 8 := by
  have hsigns : parameterNegative ≠ parameterPositive := by decide
  have hsplit : decodeSplit3 (aimMessage base destination).body = some (parameterPlaylist,
      (Avr.getSignAbs base destination).1, (Avr.getSignAbs base destination).2) := rfl
  rw [hsplit, Option.some.injEq, Prod.mk.injEq, Prod.mk.injEq] at h
  obtain ⟨-, hsign, rfl⟩ := h
  rcases getSignAbs_cases base destination with ⟨hle, he⟩ | ⟨-, he⟩
  · rw [he]
    bv_omega
  · rw [he] at hsign
    exact absurd hsign hsigns

/-! ### `handle_mcu` and `handle_status` -/

theorem mcuParamSet_playlistId (h : Handle) {msg : List Byte}
    (hid : decodeGetMsgId msg = some msgIdParamSet) :
    (mcuParamSet h msg).playlistId = playlistStep h.playlistId msg := by
  match msg with
  | [] => cases hid
  | [_] => cases hid
  | [serial, id] =>
    symm
    apply playlistStep_other
    simp [isAimMsg, messageOf, Avr.isAim]
  | [serial, id, load1] | [serial, id, load1, load2] =>
    unfold playlistStep
    split <;> rfl
  | serial :: id :: param :: positive :: delta :: rest =>
    have hset : id = msgIdParamSet := Option.some.inj hid
    have haim : isAimMsg (serial :: id :: param :: positive :: delta :: rest) =
        decide (param = parameterPlaylist) := by
      simp [isAimMsg, messageOf, Avr.isAim, hset]
    unfold mcuParamSet playlistStep decodeSplit3
    rw [haim]
    dsimp only
    by_cases hlist : param = parameterPlaylist
    · subst hlist
      have hno : ¬ (parameterPlaylist ≠ parameterVolume ∧ parameterPlaylist ≠ parameterTrack ∧
          parameterPlaylist ≠ parameterPlaylist ∧ parameterPlaylist ≠ parameterGoAhead) := by
        decide
      simp only [hno, false_or, decide_true]
      split
      · rfl
      · rfl
    · rw [if_neg (c := decide (param = parameterPlaylist) = true) (by simpa using hlist)]
      split_ifs <;> rfl

/-- What each of the handlers but that of PARAM_SET brings about. -/
theorem handleMcu_brings {P : Handle → Prop} {h h' : Handle} {msg : List Byte}
    (he : handleMcu h msg = some h') (hset : decodeGetMsgId msg ≠ some msgIdParamSet)
    (other : P h) (poweroff : P (mcuPoweroff h msg)) (name : P (mcuQueryName h msg))
    (number : P (mcuQueryNumber h msg)) (reboot : P (mcuReboot h)) (resume : P (mcuResume h))
    (status : P (mcuStatus h msg)) (suspend : P (mcuSuspend h))
    (version : ∀ a, mcuVersion h msg = some a → P a) : P h' := by
  have hbranch : ∀ {c : Prop} [Decidable c] {a : Handle} {rest : Option Handle},
      (if c then some a else rest) = some h' → P a → (rest = some h' → P h') → P h' := by
    intro c _ a rest hif ha hrest
    split at hif
    · exact Option.some.inj hif ▸ ha
    · exact hrest hif
  unfold handleMcu at he
  cases hid : decodeGetMsgId msg with
  | none =>
    rw [hid] at he
    exact Option.some.inj he ▸ other
  | some msgId =>
    have hother : ¬ msgId = msgIdParamSet := fun heq => hset (by rw [hid, heq])
    rw [hid] at he
    dsimp only at he
    rw [if_neg hother] at he
    refine hbranch he poweroff fun he => hbranch he name fun he => hbranch he number fun he =>
      hbranch he reboot fun he => hbranch he resume fun he => hbranch he status fun he =>
      hbranch he suspend fun he => ?_
    split at he
    · exact version h' he
    · exact Option.some.inj he ▸ other

theorem handleMcu_playlistId {h h' : Handle} {msg : List Byte} (he : handleMcu h msg = some h') :
    h'.playlistId = playlistStep h.playlistId msg := by
  by_cases hset : decodeGetMsgId msg = some msgIdParamSet
  · have hdone : handleMcu h msg = some (mcuParamSet h msg) := by
      unfold handleMcu
      rw [hset]
      exact if_pos rfl
    rw [← Option.some.inj (hdone.symm.trans he)]
    exact mcuParamSet_playlistId h hset
  have hno : isAimMsg msg = false := by
    match msg with
    | [] => rfl
    | [_] => rfl
    | serial :: msgId :: payload =>
      exact Avr.isAim_other (fun heq => hset (congrArg some heq)) _ rfl
  rw [playlistStep_other hno]
  have hite : ∀ {c : Prop} [Decidable c] {a b : Handle}, a.playlistId = h.playlistId →
      b.playlistId = h.playlistId → (if c then a else b).playlistId = h.playlistId := by
    intro c _ a b ha hb
    split
    · exact ha
    · exact hb
  apply handleMcu_brings (P := fun a => a.playlistId = h.playlistId) he hset
  case other => rfl
  case poweroff =>
    unfold mcuPoweroff
    cases decodeSplit1 msg with
    | none => rfl
    | some delay => exact hite rfl rfl
  case name =>
    unfold mcuQueryName
    cases decodeSplit2 msg with
    | none => rfl
    | some p => exact hite rfl (hite rfl rfl)
  case number =>
    unfold mcuQueryNumber
    cases decodeSplit1 msg with
    | none => rfl
    | some param => exact hite rfl (hite rfl (hite rfl rfl))
  case reboot => rfl
  case resume => exact infoPush_playlistId _
  case status =>
    unfold mcuStatus
    cases decodeSplit2 msg with
    | none => rfl
    | some p => exact hite (infoPush_playlistId h) rfl
  case suspend => rfl
  case version =>
    intro a ha
    unfold mcuVersion at ha
    cases hsplit : decodeSplit1 msg with
    | none =>
      rw [hsplit] at ha
      exact Option.some.inj ha ▸ rfl
    | some version =>
      rw [hsplit] at ha
      dsimp only at ha
      split at ha
      · cases ha
      · rw [← Option.some.inj ha]
        exact infoPush_playlistId _

/-! ### The PARAM_SETs on their way -/

/-- Each of them starts from the playlist the Pi will then have. -/
inductive Lands : Byte → List (List Byte) → List (Byte × Byte) → Prop where
  | none (playlistId : Byte) : Lands playlistId [] []
  | aim {base : Byte} {msgs : List (List Byte)} {aims : List (Byte × Byte)} (destination : Byte)
      (h : Lands (playlistStep base (aimMessage base destination).body) msgs aims) :
      Lands base ((aimMessage base destination).body :: msgs) ((base, destination) :: aims)

theorem Lands.append {playlistId : Byte} {msgs msgs' : List (List Byte)}
    {aims aims' : List (Byte × Byte)} (h : Lands playlistId msgs aims)
    (h' : Lands (msgs.foldl playlistStep playlistId) msgs' aims') :
    Lands playlistId (msgs ++ msgs') (aims ++ aims') := by
  induction h with
  | none playlistId => exact h'
  | aim destination _ ih => exact .aim destination (ih h')

theorem lands_one {playlistId base : Byte} (destination : Byte) (h : playlistId = base) :
    Lands playlistId [(aimMessage base destination).body] [(base, destination)] :=
  h ▸ .aim destination (.none _)

/-- The first of them hits. -/
theorem Lands.hits {playlistId base destination : Byte} {msg : List Byte}
    {msgs : List (List Byte)} {aims : List (Byte × Byte)}
    (h : Lands playlistId (msg :: msgs) ((base, destination) :: aims)) :
    Landing.Hits ⟨base, destination, msg, playlistId, playlistStep playlistId msg⟩ := by
  cases h
  intro hpositive
  refine ⟨?_, rfl, fun param delta hsplit => aim_no_wrap _ _ hsplit⟩
  have hnew := playlistStep_aim playlistId destination
  rwa [if_pos hpositive] at hnew

/-! ### The invariant -/

structure AimSound (t : Aimed) : Prop where
  sound : ComposedSound t.system
  lands : Lands t.system.handle.playlistId (t.system.up.filter isAimMsg) t.aims
  base : t.system.avr.state.menu.state ≠ .idle →
    ∀ base ∈ Avr.baseOf t.system.avr.state.menu, base = t.system.pendingPlaylist
  hit : t.Hit

theorem noted_of_tells {t t' : Composed} {s : Avr.State} {e : Avr.HoldEvent}
    {told : List Message} (h : ComposedSound t) (hm : AvrMoves t t' s e)
    (ht : Avr.Tells Avr.isAim s.link (Avr.holdStep s e).link told) :
    Aimed.noted t t' = told.map fun _ =>
      (t.avr.state.menu.paramOld .playlist, t.avr.state.menu.paramNew .playlist) := by
  obtain ⟨msgs, hup⟩ := h.upward
  obtain ⟨sent, held, hf, hs⟩ := (hup.hasRead hm.read).flows
  obtain ⟨out, held', hout, hf', -⟩ := ht sent held hf hs
  have hsame : s.link.written = t.avr.state.link.written := by
    obtain ⟨readBuf, d, -, rfl⟩ := hm.read
    rfl
  have hnew : t'.avr.state.link.written.drop t.avr.state.link.written.length =
      out.map Message.frame := by
    rw [← hsame, hm.avr, hf'.written, hf.written, List.map_append, List.drop_left]
  have hbodies : (out.map Message.frame).map (·.drop 2) = out.map Message.body := by
    rw [List.map_map]
    rfl
  unfold Aimed.noted
  rw [hnew, hbodies, List.filter_map, List.map_map, ← hout]
  rfl

theorem noted_same {t t' : Composed} (h : t'.avr.state.link.written = t.avr.state.link.written) :
    Aimed.noted t t' = [] := by
  unfold Aimed.noted
  rw [h, List.drop_length]
  rfl

/-- A step of the AVR: what it tells starts from the value that is there, and
that value is the one the Pi comes to. -/
theorem aim_avr {t : Aimed} {t' : Composed} {s : Avr.State} {e : Avr.HoldEvent} (h : AimSound t)
    (hm : AvrMoves t.system t' s e) (hsound : ComposedSound t')
    (hnumber : t'.avr.state.menu.state ≠ .idle → Avr.aims s e = [] →
      ∀ base ∈ Avr.baseAfter s e, base = t.system.pendingPlaylist) :
    AimSound { t with system := t', aims := t.aims ++ Aimed.noted t.system t' } := by
  have hhold := hm.read.hold h.sound.hold
  have hmenu : s.menu = t.system.avr.state.menu := by
    obtain ⟨readBuf, d, -, rfl⟩ := hm.read
    rfl
  have hhandle : t'.handle = t.system.handle := by rw [hm.rest]
  have ht := Avr.tells_holdStep_playlist hhold.wired.table e
  have hup := hm.up isAimMsg_body h.sound ht
  have hnoted := noted_of_tells h.sound hm ht
  rw [← hmenu] at hnoted
  have hpending : t'.pendingPlaylist =
      ((Avr.aims s e).map Message.body).foldl playlistStep t.system.pendingPlaylist := by
    unfold Composed.pendingPlaylist
    rw [← foldl_filter_aim, hup, hhandle, List.foldl_append, foldl_filter_aim]
  have hfold : (t.system.up.filter isAimMsg).foldl playlistStep t.system.handle.playlistId =
      t.system.pendingPlaylist := foldl_filter_aim _ _
  have hbase : Avr.baseOf t'.avr.state.menu = Avr.baseAfter s e := by
    rw [hm.avr]
    exact Avr.holdStep_base hhold.wired e
  rcases Avr.aims_cases s e with hnone | ⟨hone, hopen, hold, hafter⟩
  · rw [hnone] at hup hpending hnoted
    refine ⟨hsound, ?_, fun hs base hb => ?_, h.hit⟩
    · rw [hup, hhandle, hnoted]
      exact h.lands.append (.none _)
    · rw [hbase] at hb
      rw [hpending]
      exact hnumber hs hnone base hb
  · rw [hone] at hup hnoted
    refine ⟨hsound, ?_, fun hs base hb => ?_, h.hit⟩
    · rw [hup, hhandle, hnoted]
      apply h.lands.append
      rw [hfold]
      have hkept := h.base
      rw [← hmenu] at hkept
      exact lands_one _ (hkept hopen _ (Option.mem_def.mpr hold)).symm
    · rw [hbase, hafter] at hb
      cases hb

theorem aim_avr_step {t : Aimed} (h : AimSound t) (e : AvrEvent) :
    AimSound (aimedStep t (.avr e)) := by
  have hstep : aimedStep t (.avr e) = { t with
      system := composedStep t.system (.avr e)
      aims := t.aims ++ Aimed.noted t.system (composedStep t.system (.avr e)) } := rfl
  rw [hstep]
  by_cases hr : t.system.Runs e
  swap
  · rw [stepAvr_waits hr, noted_same rfl, List.append_nil]
    exact h
  refine aim_avr h (avr_moves h.sound hr) (avr_sound h.sound e) fun hs hnone base hb => ?_
  rw [(avr_moves h.sound hr).avr] at hs
  by_cases hidle : t.system.avr.state.menu.state = .idle
  · -- only a knob has opened it, and with it there is no value yet
    rcases Avr.holdStep_opens h.sound.hold.wired hidle e.hold hs with
      ⟨id, action, he, happly⟩ | ⟨m, fits, he, -⟩
    · have hafter : Avr.baseAfter t.system.avr.state e.hold = none := by
        rw [he]
        exact if_pos ⟨hidle, happly⟩
      rw [hafter] at hb
      cases hb
    · cases e <;> cases he
  · have hafter : Avr.baseAfter t.system.avr.state e.hold = none ∨
        Avr.baseAfter t.system.avr.state e.hold = Avr.baseOf t.system.avr.state.menu := by
      cases e with
      | rotor id action => exact .inr (if_neg fun hh => hidle hh.1)
      | expire id => exact ite_eq_or_eq _ _ _
      | _ => exact .inr rfl
    rcases hafter with hafter | hafter
    · rw [hafter] at hb
      cases hb
    · rw [hafter] at hb
      exact h.base hidle base hb

/-- A step in which the AVR keeps its menu and the Pi comes to the same playlist. -/
theorem AimSound.of_same {t : Aimed} (h : AimSound t) (t' : Composed) (hsound : ComposedSound t')
    (hmenu : t'.avr.state.menu = t.system.avr.state.menu)
    (hid : t'.handle.playlistId = t.system.handle.playlistId)
    (hup : t'.up.filter isAimMsg = t.system.up.filter isAimMsg) :
    AimSound { t with system := t' } := by
  have hpending : t'.pendingPlaylist = t.system.pendingPlaylist := by
    unfold Composed.pendingPlaylist
    rw [← foldl_filter_aim, hup, hid, foldl_filter_aim]
  refine ⟨hsound, ?_, ?_, h.hit⟩
  · rw [hid, hup]
    exact h.lands
  · rw [hmenu, hpending]
    exact h.base

theorem AimSound.of_quiet {t : Aimed} (h : AimSound t) {t' : Composed}
    (hq : PiQuiet t.system t') : AimSound { t with system := t' } := by
  obtain ⟨l, d, pc, hl⟩ := hq.avr
  refine h.of_same t' hq.sound ?_ hq.playlistId ?_
  · rw [hl]
  · rw [hq.up]

theorem inByte_arrive (d : Avr.Decoder) (i : ℕ) :
    Avr.inByte (Avr.arrive d (Avr.decodedMessage d)) i = Avr.inByte d i := by
  have hbuf : (Avr.arrive d (Avr.decodedMessage d)).inBuf = d.inBuf := by
    unfold Avr.arrive Avr.decodedMessage
    dsimp only
    rw [List.length_take]
    rcases Nat.le_total (d.msgSize - 2).toNat d.inBuf.length with hle | hle
    · rw [Nat.min_eq_left hle, List.take_append_drop]
    · rw [Nat.min_eq_right hle, List.take_of_length_le hle, List.drop_length, List.append_nil]
  unfold Avr.inByte
  rw [hbuf]

theorem aim_decode_step {t : Aimed} (h : AimSound t) (hk : KeepsBase t.system .decodeStep) :
    AimSound (aimedStep t .decodeStep) := by
  have hstep : aimedStep t .decodeStep = { t with
      system := composedStep t.system .decodeStep
      aims := t.aims ++ Aimed.noted t.system (composedStep t.system .decodeStep) } := rfl
  rw [hstep]
  cases hi : Avr.invoked t.system.avr with
  | none =>
    obtain ⟨hquiet, hwritten⟩ := decodeStep_quiet h.sound hi
    rw [noted_same hwritten, List.append_nil]
    exact h.of_quiet hquiet
  | some s =>
    have hd := decodeStep_decodes h.sound hi
    obtain ⟨hnumber, hname⟩ := hk s (by rw [hi]; rfl)
    have hmenu : s.menu = t.system.avr.state.menu := by
      obtain ⟨readBuf, d, -, rfl⟩ := hd.moves.read
      rfl
    have hwired := (hd.moves.read.hold h.sound.hold).wired
    refine aim_avr h hd.moves hd.sound fun hs _ base hb => ?_
    rw [hd.moves.avr] at hs
    have hkeeps : ∀ m : Message, Avr.IsNumber s m → ¬ Avr.OpensTag s m := by
      intro m hn ho
      have hid := ho.1
      rw [hn.1] at hid
      exact absurd hid (by decide)
    by_cases hidle : s.menu.state = .idle
    · rcases Avr.holdStep_opens hwired hidle (.message (Avr.decodedMessage s.decoder) hd.fits) hs
        with ⟨id, action, he, -⟩ | ⟨m, fits, he, hopens⟩
      · cases he
      · cases he
        have hno : ¬ Avr.IsNumber s (Avr.decodedMessage s.decoder) := fun hn => hkeeps _ hn hopens
        rw [Avr.baseAfter, if_neg hno] at hb
        exact hname hopens hidle base hb
    · by_cases hn : Avr.IsNumber s (Avr.decodedMessage s.decoder)
      · rw [Avr.baseAfter, if_pos hn, Option.mem_some_iff, inByte_arrive] at hb
        rw [← hb]
        exact hnumber hn hidle
      · rw [Avr.baseAfter, if_neg hn] at hb
        rw [hmenu] at hidle hb
        exact h.base hidle base hb

theorem land_other {t : Aimed} (system : Composed)
    (h : ∀ msg ∈ t.system.handle.fromMcuQueue.head?,
      ¬ (t.system.terminated = false ∧ isAimMsg msg = true)) :
    t.land system = { t with system := system } := by
  unfold Aimed.land
  cases hq : t.system.handle.fromMcuQueue with
  | nil => rfl
  | cons msg rest =>
    cases t.aims with
    | nil => rfl
    | cons aim aims => exact if_neg (h msg (by rw [hq]; rfl))

/-- The PARAM_SET that is handled was the first on its way. -/
theorem aim_landed {t : Aimed} (h : AimSound t) {msg : List Byte} {rest : List (List Byte)}
    {handle : Handle} (hlive : t.system.terminated = false)
    (hq : t.system.handle.fromMcuQueue = msg :: rest)
    (hmcu : handleMcu { t.system.handle with fromMcuQueue := rest } msg = some handle)
    (hsound : ComposedSound { t.system with handle := handle }) :
    AimSound (t.land { t.system with handle := handle }) := by
  have hid := handleMcu_playlistId hmcu
  have hfrom : handle.fromMcuQueue = rest := handleMcu_fromMcuQueue hmcu
  let t' : Composed := { t.system with handle := handle }
  have hup : t.system.up = msg :: t'.up := by
    have hafter : t'.up = rest ++ t.system.inFlight := congrArg (· ++ t.system.inFlight) hfrom
    rw [hafter]
    unfold Composed.up
    rw [hq]
    rfl
  by_cases haim : isAimMsg msg = true
  · have hlands := h.lands
    rw [hup, List.filter_cons_of_pos haim] at hlands
    cases haims : t.aims with
    | nil =>
      rw [haims] at hlands
      cases hlands
    | cons aim aims =>
      obtain ⟨base, destination⟩ := aim
      rw [haims] at hlands
      have hland : t.land t' = {
          system := t'
          aims := aims
          landed := t.landed ++
            [⟨base, destination, msg, t.system.handle.playlistId, handle.playlistId⟩] } := by
        unfold Aimed.land
        rw [hq, haims]
        exact if_pos ⟨hlive, haim⟩
      have hpending : t'.pendingPlaylist = t.system.pendingPlaylist := by
        have hnow : t'.pendingPlaylist = t'.up.foldl playlistStep handle.playlistId := rfl
        rw [hnow, hid]
        unfold Composed.pendingPlaylist
        rw [hup, List.foldl_cons]
      have hrest : Lands handle.playlistId (t'.up.filter isAimMsg) aims := by
        rw [hid]
        cases hlands with
        | aim destination hrest => exact hrest
      rw [hland]
      refine ⟨hsound, hrest, ?_, fun l hl => ?_⟩
      · dsimp only
        rw [hpending]
        exact h.base
      · rcases List.mem_append.mp hl with hl | hl
        · exact h.hit l hl
        · rw [List.mem_singleton.mp hl, hid]
          exact hlands.hits
  · have hno : isAimMsg msg = false := by simpa using haim
    rw [land_other t' fun m hm hh => ?_]
    · apply h.of_same t' hsound rfl (hid.trans (playlistStep_other hno))
      rw [hup, List.filter_cons_of_neg haim]
    · rw [hq, List.head?_cons, Option.mem_some_iff] at hm
      rw [← hm] at hh
      exact haim hh.2

theorem aim_handleMcu_step {t : Aimed} (h : AimSound t) : AimSound (aimedStep t .handleMcu) := by
  have hstep : aimedStep t .handleMcu = t.land (composedStep t.system .handleMcu) := rfl
  have hsound : ComposedSound (composedStep t.system .handleMcu) :=
    composedSound_step h.sound trivial
  rw [hstep]
  by_cases hend : t.system.terminated = true
  · have hsame : composedStep t.system .handleMcu = t.system := if_pos hend
    rw [hsame, land_other _ fun msg _ hh => ?_]
    · exact h
    · rw [hend] at hh
      cases hh.1
  have hlive : t.system.terminated = false := by simpa using hend
  have hpop : composedStep t.system .handleMcu = t.system.popMcu := if_neg hend
  rw [hpop] at hsound ⊢
  unfold Composed.popMcu at hsound ⊢
  cases hq : t.system.handle.fromMcuQueue with
  | nil =>
    rw [land_other _ fun msg hm => by rw [hq] at hm; cases hm]
    exact h
  | cons msg rest =>
    rw [hq] at hsound
    dsimp only at hsound ⊢
    cases hmcu : handleMcu { t.system.handle with fromMcuQueue := rest } msg with
    | none =>
      rw [hmcu] at hsound
      rw [land_other _ fun m hm hh => ?_]
      · exact h.of_same _ hsound rfl rfl rfl
      · -- the message that makes it throw is a VERSION
        rw [hq, List.head?_cons, Option.mem_some_iff] at hm
        rw [← hm] at hh
        have hversion := (handleMcu_none hmcu).1
        match msg with
        | [] => cases hversion
        | [_] => cases hversion
        | serial :: id :: payload =>
          have hid : id = msgIdVersion := Option.some.inj hversion
          have hother : msgIdVersion ≠ msgIdParamSet := by decide
          have hno := Avr.isAim_other hother (messageOf (serial :: id :: payload)) hid
          rw [isAimMsg, hno] at hh
          cases hh.2
    | some handle =>
      rw [hmcu] at hsound
      exact aim_landed h hlive hq hmcu hsound

theorem aim_handleStatus_step {t : Aimed} (h : AimSound t) :
    AimSound (aimedStep t .handleStatus) := by
  have hstep : aimedStep t .handleStatus =
      { t with system := composedStep t.system .handleStatus } := rfl
  have hsound : ComposedSound (composedStep t.system .handleStatus) :=
    composedSound_step h.sound trivial
  rw [hstep]
  by_cases hend : t.system.terminated = true
  · have hsame : composedStep t.system .handleStatus = t.system := if_pos hend
    rw [hsame]
    exact h
  have hpop : composedStep t.system .handleStatus = t.system.popStatus := if_neg hend
  rw [hpop] at hsound ⊢
  rcases popStatus_cases t.system with he | ⟨status, rest, -, he | ⟨handle, hstatus, he⟩⟩
  · rw [he]
    exact h
  · rw [he] at hsound ⊢
    exact h.of_same _ hsound rfl rfl rfl
  · obtain ⟨_, _, _, _, -, hanswers⟩ := handleStatus_answers hstatus
    rw [he] at hsound ⊢
    refine h.of_same _ hsound rfl ?_ ?_
    · rw [hanswers]
    · unfold Composed.up
      rw [hanswers]
      rfl

theorem aim_restart_step {t : Aimed} (h : AimSound t) (trackRegexList : List (Text → Option Text))
    (firstByte : Byte) (hc : Clear t.system (.restart trackRegexList firstByte))
    (hk : KeepsBase t.system (.restart trackRegexList firstByte)) :
    AimSound (aimedStep t (.restart trackRegexList firstByte)) := by
  let t' := composedStep t.system (.restart trackRegexList firstByte)
  have hflight : t'.up = [Avr.versionMessage.body] :=
    Composed.up_eq (t := t') (restart_upward h.sound hc)
  have hup : t'.up.filter isAimMsg = [] := by
    rw [hflight]
    rfl
  have hsound : ComposedSound t' := composedSound_step h.sound hc
  refine ⟨hsound, ?_, fun hs base hb => ?_, h.hit⟩
  · show Lands t'.handle.playlistId (t'.up.filter isAimMsg) []
    rw [hup]
    exact .none _
  · have hpending : t'.pendingPlaylist = 0 := by
      unfold Composed.pendingPlaylist
      rw [← foldl_filter_aim, hup]
      rfl
    exact (hk hs base hb).trans hpending.symm

theorem aimSound_step {t : Aimed} (h : AimSound t) {e : ComposedEvent} (hc : Clear t.system e)
    (hk : KeepsBase t.system e) : AimSound (aimedStep t e) := by
  have hquiet : e.Quiet → AimSound { t with system := composedStep t.system e } := fun hq =>
    h.of_quiet (composedStep_quiet h.sound hq hc)
  cases e with
  | avr e => exact aim_avr_step h e
  | decodeStep => exact aim_decode_step h hk
  | handleMcu => exact aim_handleMcu_step h
  | handleStatus => exact aim_handleStatus_step h
  | restart trackRegexList firstByte => exact aim_restart_step h trackRegexList firstByte hc hk
  | _ => exact hquiet trivial

theorem aimedInit_sound : AimSound aimedInit :=
  ⟨composedInit_sound, .none _, fun h => absurd rfl h, fun _ hl => absurd hl List.not_mem_nil⟩

/-! ### Whole runs -/

/-- A PARAM_SET leads to the playlist that was selected, if each value the menu
works with is the one the Pi comes to. -/
theorem playlist_is_hit (es : List ComposedEvent)
    (h : Along aimedStep (fun t e => Clear t.system e ∧ KeepsBase t.system e) aimedInit es) :
    Throughout aimedStep Aimed.Hit aimedInit es := by
  have hsound : Throughout aimedStep AimSound aimedInit es :=
    throughout_of_along (fun _ _ hs hk => aimSound_step hs hk.1 hk.2) aimedInit_sound h
  rw [throughout_iff_start] at hsound ⊢
  intro ds hd
  exact (hsound ds hd).hit

/-- The knob is turned on and the menu closed, which the Pi is told with PARAM_SET. -/
def playlistChosen : List ComposedEvent :=
  [.avr (.rotor Avr.rotorPlaylist Avr.rotorClockwise), .avr (.expire .menu)]

@[irreducible] def playlistOnce : List ComposedEvent :=
  playlistTurned ++ playlistChosen ++ .pi :: brought 2 ++ taken 1

theorem playlist_is_hit_after_one_query : Throughout aimedStep Aimed.Hit aimedInit playlistOnce :=
  playlist_is_hit playlistOnce (by decide +kernel)

/-- The query of a menu that is closed again is answered in the next one; its
own answer is on its way when that one has been closed with PARAM_SET, and comes
to the third. -/
@[irreducible] def playlistStale : Aimed :=
  run aimedStep aimedInit (playlistAsked ++
    .avr (.expire .menu) :: .avr (.rotor Avr.rotorPlaylist Avr.rotorClockwise) ::
    reported 0 "0-1-3" ++ sent 20 ++ decoded 4 ++ .avr .postponeTry :: brought 1 ++ taken 4 ++
    .execute :: answered 8 3 ++ answered 20 3 ++
    .avr (.rotor Avr.rotorPlaylist Avr.rotorClockwise) :: reported 0 "0-1-3" ++
    .avr (.expire .menu) :: .avr (.rotor Avr.rotorPlaylist Avr.rotorClockwise) :: sent 8 ++
    decoded 3 ++ .avr .postponeTry :: brought 4 ++ taken 5 ++ playlistChosen ++ sent 20 ++ taken 1)

theorem playlist_is_missed : ¬ playlistStale.Hit := by
  intro hhit
  obtain ⟨l, hl, hpositive, hmissed⟩ : ∃ l ∈ playlistStale.landed,
      0 < l.destination ∧ ¬ l.after = l.destination := by decide +kernel
  exact hmissed (hhit l hl hpositive).1

end LedServer
