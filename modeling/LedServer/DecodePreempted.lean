import LedServer.AvrDecodeStatements

set_option autoImplicit false

/-!
# `decode_try` preempted

The main loop's statements go on after the handler has run. Outside a few places
they find nothing to do, and the frames that follow are decoded as if the call
had not been there.
-/
namespace LedServer.Avr
open AvrRing Machine FrameReader Mcu

/-! ### Runs without `INT3_vect` -/

variable {ms : List Message} {coming : List Byte} {t : TryCpu}

/-- With what is still to arrive the decoder decodes `ms`, and its statements
are where they belong. -/
structure Follows (ms : List Message) (coming : List Byte) (t : TryCpu) : Prop where
  reads : Reads ms coming (settled t)
  place : InPlace t

theorem Follows.tryStep (h : Follows ms coming t) (small : ∀ m ∈ ms, m.payload.length ≤ inSize)
    (hown : Undisturbed t (.main .decodeStep)) : Follows ms coming (tryStep t) := by
  refine ⟨?_, inPlace_tryStep h.place h.reads.flags hown⟩
  rcases settled_tryStep h.place hown with ⟨hsame, -⟩ | ⟨hsame, -⟩
  · exact hsame.reads h.reads
  · exact hsame.reads (h.reads.step small)

theorem settled_link (t : TryCpu) : (settled t).state.link = t.state.link := by
  obtain ⟨s, pc⟩ := t
  have hover : (overtaken s).state.link = s.link := by rw [overtaken_state]
  cases pc with
  | testCatch symbol =>
    unfold settled
    dsimp only
    split_ifs <;> rfl
  | test f => exact hover
  | read f => exact hover
  | readPayload => exact hover
  | _ => rfl

/-- Where the call stands depends on the decoder only. -/
theorem settled_of_decoder {s s' : State} (h : s'.decoder = s.decoder) (pc : TryPc) :
    (settled ⟨s', pc⟩).pc = (settled ⟨s, pc⟩).pc ∧
      (settled ⟨s', pc⟩).state.decoder = (settled ⟨s, pc⟩).state.decoder := by
  have hover : (overtaken s').pc = (overtaken s).pc ∧
      (overtaken s').state.decoder = (overtaken s).state.decoder := by
    unfold overtaken onward
    rw [h]
    split_ifs
    · exact ⟨rfl, h⟩
    · exact ⟨rfl, h⟩
  have hmark : ∀ flag, (onward (markFlag s' flag)).pc = (onward (markFlag s flag)).pc ∧
      (onward (markFlag s' flag)).state.decoder = (onward (markFlag s flag)).state.decoder := by
    intro flag
    unfold onward markFlag setDecoder
    dsimp only
    rw [h]
    exact ⟨rfl, rfl⟩
  cases pc with
  | idle => exact ⟨rfl, h⟩
  | testHeader => exact ⟨congrArg (fun d : Decoder => nextPc d.decoded) h, h⟩
  | readCatch => exact ⟨congrArg (fun d : Decoder => nextPc d.decoded) h, h⟩
  | testCatch symbol =>
    unfold settled
    dsimp only
    split_ifs
    · exact ⟨rfl, h⟩
    · exact hmark catchDecoded
  | markCatch => exact hmark catchDecoded
  | test f => exact hover
  | read f => exact hover
  | mark f => exact hmark f.flag
  | readPayload => exact hover
  | decode =>
    exact ⟨rfl, congrArg (fun d : Decoder =>
      decodeInit { d with calls := d.calls ++ [decodedMessage d] }) h⟩
  | clearDecoded => exact ⟨rfl, congrArg decodeInit h⟩
  | clearSize => exact ⟨rfl, congrArg decodeInit h⟩
  | clearSerial => exact ⟨rfl, congrArg decodeInit h⟩
  | clearId => exact ⟨rfl, congrArg decodeInit h⟩

theorem inPlace_of_decoder {s s' : State} (h : s'.decoder = s.decoder) {pc : TryPc}
    (hplace : InPlace ⟨s, pc⟩) : InPlace ⟨s', pc⟩ := by
  unfold InPlace Cleared at hplace ⊢
  dsimp only at hplace ⊢
  rw [h]
  exact hplace

theorem Follows.of_incoming {s s' : State} {pc : TryPc} (h : Follows ms coming ⟨s, pc⟩)
    (hbuf : s'.link.readBuf = s.link.readBuf) (hdec : s'.decoder = s.decoder) :
    Follows ms coming ⟨s', pc⟩ := by
  obtain ⟨hpc, hd⟩ := settled_of_decoder hdec pc
  refine ⟨SameReader.reads ⟨hpc, ?_, _, hd⟩ h.reads, inPlace_of_decoder hdec h.place⟩
  rw [settled_link, settled_link]
  exact hbuf

theorem Follows.arrive {b : Byte} (h : Follows ms (b :: coming) t)
    (hroom : t.state.link.readBuf.contents.length + 1 < 255) :
    Follows ms coming (tryEventStep t (.arrive b)) := by
  obtain ⟨s, pc⟩ := t
  have hdec : (exchangeStep ⟨s, .idle⟩ b).state.decoder = s.decoder := rfl
  obtain ⟨hpc, hd⟩ := settled_of_decoder hdec pc
  have hreads := h.reads.arrive (keepsByte_of_below (by rw [settled_link]; exact hroom))
  have hsame : SameReader (readerStep (settled ⟨s, pc⟩) (.arrive b))
      (settled (tryEventStep ⟨s, pc⟩ (.arrive b))) := by
    refine ⟨hpc, ?_, _, hd⟩
    change _ = (spiStcVect (settled ⟨s, pc⟩).state.link b).readBuf
    rw [settled_link, settled_link]
    rfl
  exact ⟨hsame.reads hreads, inPlace_of_decoder hdec h.place⟩

/-- The other calls of the main loop do not read. -/
theorem tryMain_other {e : MainEvent} (t : TryCpu) (he : e ≠ .decodeStep) :
    ∃ s : State, tryMain t e = ⟨s, t.pc⟩ ∧ s.link.readBuf = t.state.link.readBuf ∧
      s.decoder = t.state.decoder := by
  obtain ⟨-, hbuf, hdec⟩ := (mainStep_incoming ⟨t.state, .idle⟩ e).resolve_left he
  unfold tryMain
  rw [if_neg he]
  split_ifs
  · exact ⟨_, rfl, hbuf, hdec⟩
  · exact ⟨_, rfl, rfl, rfl⟩

theorem Follows.main {e : MainEvent} (h : Follows ms coming t)
    (small : ∀ m ∈ ms, m.payload.length ≤ inSize) (hown : Undisturbed t (.main e)) :
    Follows ms coming (tryEventStep t (.main e)) := by
  by_cases he : e = .decodeStep
  · subst he
    exact h.tryStep small hown
  · obtain ⟨s, pc⟩ := t
    obtain ⟨s', hmain, hbuf, hdec⟩ := tryMain_other ⟨s, pc⟩ he
    rw [tryEventStep, hmain]
    exact h.of_incoming hbuf hdec

theorem Follows.run (small : ∀ m ∈ ms, m.payload.length ≤ inSize) {es : List TryEvent}
    (hno : .int3 ∉ es) (h : Follows ms (tryArrivals es ++ coming) t)
    (hown : Along tryEventStep Undisturbed t es) :
    Follows ms coming (Machine.run tryEventStep t es) := by
  induction es generalizing t with
  | nil => exact h
  | cons e es ih =>
    obtain ⟨hfirst, htail⟩ := hown
    have hno' : .int3 ∉ es := fun hmem => hno (List.mem_cons_of_mem e hmem)
    cases e with
    | arrive b => exact ih hno' (h.arrive hfirst) htail
    | main e => exact ih hno' (h.main small hfirst) htail
    | int3 => exact absurd List.mem_cons_self hno

/-! ### All that has arrived is decoded -/

theorem effort_pos {c : Cpu} (h : c.pc ≠ .idle) : effort c ≠ 0 := by
  unfold effort
  cases hpc : c.pc with
  | idle => exact absurd hpc h
  | readPayload => exact Nat.succ_ne_zero _
  | _ =>
    dsimp only
    by_cases hc : c.state.link.readBuf.contents = []
    · rw [if_pos hc]
      exact Nat.succ_ne_zero _
    · rw [if_neg hc]
      have := List.length_pos_iff.mpr hc
      omega

/-- Bounds the statements left to execute once nothing more arrives. -/
def labour (t : TryCpu) : ℕ := 7 * effort (settled t) + rank t.pc

theorem rank_zero {pc : TryPc} (h : rank pc = 0) : pc = .idle := by
  cases pc with
  | idle => rfl
  | test f => cases f <;> exact absurd h (by decide)
  | mark f => cases f <;> exact absurd h (by decide)
  | testCatch symbol => exact absurd h (by exact Nat.succ_ne_zero 5)
  | read f => exact absurd h (by exact Nat.succ_ne_zero 0)
  | _ => exact absurd h (by decide)

theorem Follows.labour_lt (h : Follows ms [] t) (small : ∀ m ∈ ms, m.payload.length ≤ inSize)
    (hown : Undisturbed t (.main .decodeStep)) (hpos : labour t ≠ 0) :
    labour (Avr.tryStep t) < labour t := by
  unfold labour at hpos ⊢
  have hle := rank_le (Avr.tryStep t).pc
  rcases settled_tryStep h.place hown with ⟨hsame, hrank⟩ | ⟨hsame, hbusy⟩
  · rw [hsame.effort]
    omega
  · have hne : effort (settled t) ≠ 0 := by
      rcases hbusy with hidle | hbusy
      · rw [hidle] at hpos
        intro hz
        rw [hz] at hpos
        exact hpos rfl
      · exact effort_pos hbusy
    have hlt := h.reads.effort_lt small hne
    rw [hsame.effort]
    omega

theorem Follows.done (h : Follows ms [] t) (hzero : labour t = 0) :
    t.state.decoder.calls = ms ∧ Avr.tryStep t = t := by
  unfold labour at hzero
  obtain ⟨s, pc⟩ := t
  obtain rfl : pc = .idle := rank_zero (Nat.eq_zero_of_add_eq_zero_left hzero)
  have heffort : effort ⟨s, .idle⟩ = 0 := by
    have hset : settled ⟨s, .idle⟩ = ⟨s, .idle⟩ := rfl
    rw [hset] at hzero
    omega
  obtain ⟨hcalls, hstay⟩ := h.reads.done heffort
  refine ⟨hcalls, ?_⟩
  change decodeStep ⟨s, .idle⟩ = ⟨s, .idle⟩ at hstay
  unfold decodeStep at hstay
  unfold Avr.tryStep
  dsimp only at hstay ⊢
  split_ifs at hstay ⊢ with hempty
  · rfl
  · exact absurd (congrArg Cpu.pc hstay) (nextPc_ne_idle _)

theorem Follows.eventually (h : Follows ms [] t) (small : ∀ m ∈ ms, m.payload.length ≤ inSize) :
    ∃ k, ∀ j, k ≤ j →
      Along tryEventStep Undisturbed t (List.replicate j (.main .decodeStep)) →
      (Machine.run tryEventStep t (List.replicate j (.main .decodeStep))).state.decoder.calls =
        ms := by
  induction hn : labour t using Nat.strong_induction_on generalizing t with
  | _ n ih =>
    subst hn
    by_cases hzero : labour t = 0
    · obtain ⟨hcalls, hstay⟩ := h.done hzero
      refine ⟨0, fun j _ _ => ?_⟩
      have hrest : ∀ j, Machine.run tryEventStep t
          (List.replicate j (.main .decodeStep)) = t := by
        intro j
        induction j with
        | zero => rfl
        | succ j ihj =>
          have hstep : tryEventStep t (.main .decodeStep) = t := hstay
          rw [List.replicate_succ, run_cons, hstep, ihj]
      rw [hrest j]
      exact hcalls
    · by_cases hown : Undisturbed t (.main .decodeStep)
      · obtain ⟨k, hk⟩ := ih _ (h.labour_lt small hown hzero) (h.tryStep small hown) rfl
        refine ⟨k + 1, fun j hj hj' => ?_⟩
        obtain ⟨i, rfl⟩ : ∃ i, j = i + 1 := ⟨j - 1, by omega⟩
        exact hk i (by omega) hj'.2
      · refine ⟨1, fun j hj hj' => ?_⟩
        obtain ⟨i, rfl⟩ : ∃ i, j = i + 1 := ⟨j - 1, by omega⟩
        exact absurd hj'.1 hown

/-! ### The interrupt -/

/-- Between a byte of the header read and its flag set. -/
def InWindow : TryPc → Prop
  | .testCatch symbol => symbol = eyeCatch
  | .markCatch => True
  | .mark _ => True
  | _ => False

instance (pc : TryPc) : Decidable (InWindow pc) := by
  cases pc <;> unfold InWindow <;> infer_instance

/-- What the interrupted call hands to `decode` all the same: the cleared header
with whatever `in_buf` holds. -/
def owed (t : TryCpu) : List Message :=
  if t.pc = .decode then [decodedMessage (decodeInit t.state.decoder)] else []

/-- What every step of every run keeps. -/
structure Sound (s : State) : Prop where
  valid : s.link.readBuf.Valid
  inBuf : s.decoder.inBuf.length = inSize
  calls : ∀ m ∈ s.decoder.calls, m.payload.length ≤ inSize

theorem Sound.of_incoming {s s' : State} (h : Sound s) (hv : s'.link.readBuf.Valid)
    (hin : s'.decoder.inBuf.length = s.decoder.inBuf.length)
    (hcalls : s'.decoder.calls = s.decoder.calls) : Sound s' :=
  ⟨hv, hin.trans h.inBuf, hcalls ▸ h.calls⟩

theorem decodedMessage_small {d : Decoder} (h : d.inBuf.length = inSize) :
    (decodedMessage d).payload.length ≤ inSize := by
  rw [← h]
  exact List.length_take_le' _ _

theorem readPayload_sound {s : State} (h : Sound s) : Sound (readPayload s).1 := by
  refine h.of_incoming (bufferArrayDrain_valid h.valid _ _) ?_ rfl
  change (bufferArrayDrain s.link.readBuf s.decoder.inBuf (s.decoder.msgSize - 2)).2.1.length = _
  by_cases held : (s.decoder.msgSize - 2).toNat ≤ s.link.readBuf.contents.length
  · obtain ⟨buf, hdrain, -⟩ := bufferArrayDrain_held h.valid s.decoder.inBuf
      (s.decoder.msgSize - 2) held
    rw [hdrain]
    exact storeFrom_length _ _ _
  · rw [bufferArrayDrain_short _ _ held]

theorem tryStep_sound {t : TryCpu} (h : Sound t.state) : Sound (Avr.tryStep t).state := by
  obtain ⟨s, pc⟩ := t
  have hread : Sound (readSymbol s).1 := h.of_incoming (bufferByteDrain_valid h.valid) rfl rfl
  have hpayload := readPayload_sound h
  unfold Avr.tryStep
  cases pc with
  | idle => dsimp only; split_ifs <;> exact h
  | testHeader => dsimp only; split_ifs <;> exact h
  | readCatch =>
    dsimp only
    generalize readSymbol s = r at hread ⊢
    rcases r with ⟨s', _ | symbol⟩ <;> exact hread
  | testCatch symbol => dsimp only; split_ifs <;> exact h
  | markCatch => exact h.of_incoming h.valid rfl rfl
  | test f => dsimp only; split_ifs <;> exact h
  | read f =>
    dsimp only
    generalize readSymbol s = r at hread ⊢
    rcases r with ⟨s', _ | symbol⟩
    · exact hread
    · cases f <;> exact hread.of_incoming hread.valid rfl rfl
  | mark f => exact h.of_incoming h.valid rfl rfl
  | readPayload =>
    dsimp only
    generalize readPayload s = r at hpayload ⊢
    rcases r with ⟨s', _ | _⟩ <;> exact hpayload
  | decode =>
    obtain ⟨hbuf, hdec⟩ := decode_incoming s
    refine ⟨hbuf ▸ h.valid, hdec ▸ h.inBuf, fun m hm => ?_⟩
    rw [hdec] at hm
    rcases List.mem_append.mp hm with hm | hm
    · exact h.calls m hm
    · rw [List.mem_singleton.mp hm]
      exact decodedMessage_small h.inBuf
  | clearDecoded => exact h.of_incoming h.valid rfl rfl
  | clearSize => exact h.of_incoming h.valid rfl rfl
  | clearSerial => exact h.of_incoming h.valid rfl rfl
  | clearId => exact h.of_incoming h.valid rfl rfl

theorem spiStcVect_valid {l : Link} (h : l.readBuf.Valid) (b : Byte) :
    (spiStcVect l b).readBuf.Valid := by
  have hfill : (bufferByteFill l.readBuf b).1.Valid := byteFill_valid h b
  unfold spiStcVect
  generalize bufferByteFill l.readBuf b = r at hfill ⊢
  rcases r with ⟨buf, _ | _⟩
  · exact h
  · dsimp only
    rcases bufferByteDrain l.writeBuf with ⟨out, _ | toSend⟩ <;> exact hfill

/-- The handler throws away what has arrived and starts the header over. -/
theorem int3Vect_incoming (s : State) :
    (int3Vect s).link.readBuf = bufferClear s.link.readBuf ∧
      (int3Vect s).decoder = decodeInit s.decoder := by
  refine ⟨?_, rfl⟩
  unfold int3Vect encodeMsg1
  dsimp only
  rw [postponeMessage_readBuf]

theorem tryEventStep_sound {t : TryCpu} (h : Sound t.state) (e : TryEvent) :
    Sound (tryEventStep t e).state := by
  cases e with
  | arrive b => exact h.of_incoming (spiStcVect_valid h.valid b) rfl rfl
  | main e =>
    by_cases he : e = .decodeStep
    · subst he
      exact tryStep_sound h
    · obtain ⟨s, hmain, hbuf, hdec⟩ := tryMain_other t he
      rw [tryEventStep, hmain]
      exact h.of_incoming (hbuf ▸ h.valid) (by rw [hdec]) (by rw [hdec])
  | int3 =>
    obtain ⟨hbuf, hdec⟩ := int3Vect_incoming t.state
    refine h.of_incoming ?_ ?_ ?_
    · change (int3Vect t.state).link.readBuf.Valid
      rw [hbuf]
      exact bufferClear_valid _
    · exact (congrArg (fun d : Decoder => d.inBuf.length) hdec : _)
    · exact (congrArg Decoder.calls hdec : _)

theorem init_sound : Sound init := by
  have hfresh := init_freshReader
  refine ⟨hfresh.valid, hfresh.inBuf, ?_⟩
  rw [hfresh.calls]
  simp

theorem read_skip (junk bytes : List Byte) (h : eyeCatch ∉ junk) :
    FrameReader.read .seek (junk ++ bytes) = FrameReader.read .seek bytes := by
  induction junk with
  | nil => rfl
  | cons b junk ih =>
    have hb : b ≠ eyeCatch := fun hb => h (hb ▸ List.mem_cons_self)
    have hskip : advance .seek b = .seek := if_neg hb
    rw [List.cons_append, read_cons, hskip, readFrom_of_settled rfl]
    exact ih fun hmem => h (List.mem_cons_of_mem b hmem)

/-- Outside the window the interrupted call is over with a blank header. -/
theorem settled_int3 {t : TryCpu} (h : ¬ InWindow t.pc) :
    (settled ⟨int3Vect t.state, t.pc⟩).state.decoder = decodeInit
        { t.state.decoder with calls := t.state.decoder.calls ++ owed t } ∧
      ((settled ⟨int3Vect t.state, t.pc⟩).pc = .idle ∨
        (settled ⟨int3Vect t.state, t.pc⟩).pc = .readCatch) ∧
      InPlace ⟨int3Vect t.state, t.pc⟩ := by
  obtain ⟨s, pc⟩ := t
  obtain ⟨-, hdec⟩ := int3Vect_incoming s
  dsimp only at h ⊢
  generalize int3Vect s = s' at hdec ⊢
  have hzero : s'.decoder.decoded = 0 := by rw [hdec]; rfl
  have hsame : s'.decoder = decodeInit { s.decoder with calls := s.decoder.calls ++ [] } := by
    rw [hdec, List.append_nil]
  have hnext : nextPc s'.decoder.decoded = .readCatch := by rw [hzero]; rfl
  have hover : overtaken s' = ⟨s', .idle⟩ := overtaken_idle hzero
  have hclear : decodeInit s'.decoder = decodeInit
      { s.decoder with calls := s.decoder.calls ++ [] } := by rw [hsame]; rfl
  cases pc with
  | idle => exact ⟨hsame, .inl rfl, trivial⟩
  | testHeader => exact ⟨hsame, .inr hnext, trivial⟩
  | readCatch => exact ⟨hsame, .inr hnext, hzero⟩
  | testCatch symbol =>
    have hset : settled ⟨s', .testCatch symbol⟩ = ⟨s', .idle⟩ := if_pos h
    rw [hset]
    exact ⟨hsame, .inl rfl, hzero⟩
  | markCatch => exact absurd trivial h
  | test f =>
    rw [show settled ⟨s', .test f⟩ = ⟨s', .idle⟩ from hover]
    exact ⟨hsame, .inl rfl, .inl hzero⟩
  | read f =>
    rw [show settled ⟨s', .read f⟩ = ⟨s', .idle⟩ from hover]
    exact ⟨hsame, .inl rfl, .inl hzero⟩
  | mark f => exact absurd trivial h
  | readPayload =>
    rw [show settled ⟨s', .readPayload⟩ = ⟨s', .idle⟩ from hover]
    exact ⟨hsame, .inl rfl, .inl hzero⟩
  | decode =>
    refine ⟨?_, .inl rfl, trivial⟩
    change decodeInit { s'.decoder with
      calls := s'.decoder.calls ++ [decodedMessage s'.decoder] } = _
    rw [hdec]
    rfl
  | clearDecoded => exact ⟨hclear, .inl rfl, trivial⟩
  | clearSize => exact ⟨hclear, .inl rfl, hzero⟩
  | clearSerial => exact ⟨hclear, .inl rfl, hzero, by dsimp only; rw [hdec]; rfl⟩
  | clearId =>
    exact ⟨hclear, .inl rfl, hzero, by dsimp only; rw [hdec]; rfl, by dsimp only; rw [hdec]; rfl⟩

theorem follows_int3 {t : TryCpu} (h : Sound t.state) (hwindow : ¬ InWindow t.pc)
    {junk : List Byte} (hjunk : eyeCatch ∉ junk) (small : ∀ m ∈ ms, m.payload.length ≤ inSize) :
    Follows (t.state.decoder.calls ++ owed t ++ ms) (junk ++ wire ms)
      (tryEventStep t .int3) := by
  obtain ⟨hdec, hpc, hplace⟩ := settled_int3 hwindow
  refine ⟨?_, hplace⟩
  have hbuf : (settled (tryEventStep t .int3)).state.link.readBuf =
      bufferClear t.state.link.readBuf := by
    rw [settled_link]
    exact (int3Vect_incoming t.state).1
  have hcontents : (settled (tryEventStep t .int3)).state.link.readBuf.contents = [] := by
    rw [hbuf]
    exact ringClear_contents _
  have hphase : phaseOf (settled (tryEventStep t .int3)).state.decoder = .seek := by
    change phaseOf (settled ⟨int3Vect t.state, t.pc⟩).state.decoder = .seek
    rw [hdec]
    exact phaseOf_seek rfl
  have hread : FrameReader.read .seek (junk ++ wire ms) = (.seek, ms) := by
    rw [read_skip _ _ hjunk]
    exact read_frames fun m hm => lt_of_le_of_lt (small m hm) (by decide)
  have hdec' : (settled (tryEventStep t .int3)).state.decoder = _ := hdec
  refine ⟨hbuf ▸ bufferClear_valid _, ?_, ?_, ?_, fun _ => ?_, ?_, ?_⟩
  · rw [hdec']; exact h.inBuf
  · rw [hdec']; exact .inl rfl
  · rw [hdec']; exact hpc
  · rw [hphase]; rfl
  · rw [hphase, hcontents, List.nil_append, readFrom_of_settled rfl, hread]
  · rw [hphase, hcontents, List.nil_append, readFrom_of_settled rfl, hread, hdec']
    rfl

theorem owed_small {t : TryCpu} (h : Sound t.state) :
    ∀ m ∈ owed t, m.payload.length ≤ inSize := by
  intro m hm
  unfold owed at hm
  split_ifs at hm
  · rw [List.mem_singleton.mp hm]
    exact decodedMessage_small h.inBuf
  · exact absurd hm (by simp)

theorem calls_settled (t : TryCpu) :
    t.state.decoder.calls <+: (settled t).state.decoder.calls := by
  obtain ⟨s, pc⟩ := t
  have hover : s.decoder.calls <+: (overtaken s).state.decoder.calls := by
    rw [overtaken_state]
  cases pc with
  | testCatch symbol =>
    unfold settled
    dsimp only
    split_ifs <;> exact List.prefix_rfl
  | test f => exact hover
  | read f => exact hover
  | readPayload => exact hover
  | decode => exact List.prefix_append _ _
  | _ => exact List.prefix_rfl

/-! ### What the interrupted call leaves -/

def headerOf (d : Decoder) : Byte × Byte × Byte × Byte :=
  (d.decoded, d.msgSize, d.msgSerial, d.msgId)

theorem blank_iff (d : Decoder) : Blank d ↔ headerOf d = (0, 0, 0, msgIdEmpty) := by
  simp [Blank, headerOf]

/-- Nothing has arrived since the handler ran. -/
structure Stays (header : Byte × Byte × Byte × Byte) (t : TryCpu) : Prop where
  empty : t.state.link.readBuf.contents = []
  size : t.state.decoder.msgSize = 0
  cleared : Cleared t
  header : headerOf (settled t).state.decoder = header

variable {header : Byte × Byte × Byte × Byte}

theorem Stays.tryStep (h : Stays header t) : Stays header (Avr.tryStep t) := by
  obtain ⟨s, pc⟩ := t
  obtain ⟨hempty, hsize, hcleared, hheader⟩ := h
  dsimp only at hempty hsize
  have hover : (overtaken s).state = s := overtaken_state s
  have hreturn : headerOf s.decoder = header → Stays header ⟨s, .idle⟩ :=
    fun hh => ⟨hempty, hsize, trivial, hh⟩
  have htest : ∀ s' f, s'.link = s.link → s'.decoder.msgSize = 0 → headerOf s'.decoder = header →
      Stays header ⟨s', .test f⟩ := by
    intro s' f hl hz hh
    refine ⟨hl ▸ hempty, hz, trivial, ?_⟩
    rw [show settled ⟨s', .test f⟩ = overtaken s' from rfl, overtaken_state]
    exact hh
  have hafter : ∀ s' f, s'.link = s.link → s'.decoder.msgSize = 0 → headerOf s'.decoder = header →
      Stays header ⟨s', HeaderField.after f⟩ := by
    intro s' f hl hz hh
    refine ⟨hl ▸ hempty, hz, ?_, ?_⟩
    · cases f <;> trivial
    · rw [settled_after, overtaken_state]
      exact hh
  cases pc with
  | idle =>
    have hzero : spiReadSize s.link = 0 := by
      have hcount : s.link.readBuf.count = 0 := by rw [← contents_length, hempty]; rfl
      exact BitVec.eq_of_toNat_eq hcount
    unfold Avr.tryStep
    dsimp only
    rw [if_pos hzero]
    exact hreturn hheader
  | testHeader =>
    unfold Avr.tryStep
    dsimp only
    split_ifs
    · exact ⟨hempty, hsize, trivial, hheader⟩
    · exact htest s .size rfl hsize hheader
  | readCatch =>
    unfold Avr.tryStep
    simp only [readSymbol_nil hempty]
    exact hreturn hheader
  | testCatch symbol =>
    unfold settled at hheader
    unfold Avr.tryStep
    dsimp only at hheader ⊢
    split_ifs at hheader ⊢
    · exact hreturn hheader
    · exact ⟨hempty, hsize, trivial, hheader⟩
  | markCatch => exact htest _ .size rfl hsize hheader
  | test f =>
    rw [show settled ⟨s, .test f⟩ = overtaken s from rfl, hover] at hheader
    unfold Avr.tryStep
    dsimp only
    split_ifs
    · refine ⟨hempty, hsize, trivial, ?_⟩
      rw [show settled ⟨s, .read f⟩ = overtaken s from rfl, hover]
      exact hheader
    · exact hafter s f rfl hsize hheader
  | read f =>
    rw [show settled ⟨s, .read f⟩ = overtaken s from rfl, hover] at hheader
    unfold Avr.tryStep
    simp only [readSymbol_nil hempty]
    exact hreturn hheader
  | mark f => exact hafter _ f rfl hsize hheader
  | readPayload =>
    rw [show settled ⟨s, .readPayload⟩ = overtaken s from rfl, hover] at hheader
    have hlong : ¬ (s.decoder.msgSize - 2).toNat ≤ s.link.readBuf.contents.length := by
      rw [hsize, hempty]
      decide
    unfold Avr.tryStep readPayload spiReadArray
    simp only [bufferArrayDrain_short _ _ hlong]
    exact ⟨hempty, hsize, trivial, hheader⟩
  | decode =>
    obtain ⟨hbuf, hdec⟩ := decode_incoming s
    refine ⟨?_, ?_, trivial, hheader⟩
    · exact (congrArg Ring.contents hbuf).trans hempty
    · exact (congrArg Decoder.msgSize hdec).trans hsize
  | clearDecoded => exact ⟨hempty, hsize, rfl, hheader⟩
  | clearSize => exact ⟨hempty, rfl, ⟨hcleared, rfl⟩, hheader⟩
  | clearSerial => exact ⟨hempty, hsize, ⟨hcleared.1, hcleared.2, rfl⟩, hheader⟩
  | clearId =>
    refine ⟨hempty, hsize, trivial, ?_⟩
    rw [← hheader]
    change (s.decoder.decoded, s.decoder.msgSize, s.decoder.msgSerial, msgIdEmpty) =
      (0, 0, 0, msgIdEmpty)
    rw [hcleared.1, hcleared.2.1, hcleared.2.2]

theorem Stays.run {es : List TryEvent} (hno : .int3 ∉ es) (hquiet : tryArrivals es = [])
    (h : Stays header t) : Stays header (Machine.run tryEventStep t es) := by
  induction es generalizing t with
  | nil => exact h
  | cons e es ih =>
    have hno' : .int3 ∉ es := fun hmem => hno (List.mem_cons_of_mem e hmem)
    cases e with
    | arrive b => exact absurd hquiet (List.cons_ne_nil _ _)
    | int3 => exact absurd List.mem_cons_self hno
    | main e =>
      refine ih hno' hquiet ?_
      by_cases he : e = .decodeStep
      · subst he
        exact h.tryStep
      · obtain ⟨s, hmain, hbuf, hdec⟩ := tryMain_other t he
        obtain ⟨-, hset⟩ := settled_of_decoder hdec t.pc
        rw [tryEventStep, hmain]
        refine ⟨by dsimp only; rw [hbuf]; exact h.empty, by dsimp only; rw [hdec]; exact h.size,
          ?_, by rw [hset]; exact h.header⟩
        have hcleared := h.cleared
        unfold Cleared at hcleared ⊢
        dsimp only
        rw [hdec]
        exact hcleared

theorem stays_int3 (t : TryCpu) : Stays
    (headerOf (settled (tryEventStep t .int3)).state.decoder) (tryEventStep t .int3) := by
  obtain ⟨hbuf, hdec⟩ := int3Vect_incoming t.state
  have hdec' : (tryEventStep t .int3).state.decoder = decodeInit t.state.decoder := hdec
  refine ⟨?_, by rw [hdec']; rfl, ?_, rfl⟩
  · exact (congrArg Ring.contents hbuf).trans (ringClear_contents _)
  · unfold Cleared
    rw [hdec']
    cases (tryEventStep t .int3).pc <;> trivial

/-- In the window the flag is set on top of the cleared ones. -/
theorem window_iff (t : TryCpu) :
    Blank (settled (tryEventStep t .int3)).state.decoder ↔ ¬ InWindow t.pc := by
  constructor
  · rintro hblank hwindow
    obtain ⟨s, pc⟩ := t
    obtain ⟨-, hdec⟩ := int3Vect_incoming s
    have hmark : ∀ flag : Byte, flag ≠ 0 →
        (markFlag (int3Vect s) flag).decoder.decoded ≠ 0 := by
      intro flag hflag
      change (int3Vect s).decoder.decoded ||| flag ≠ 0
      rw [hdec]
      have hor : (decodeInit s.decoder).decoded ||| flag = flag := BitVec.zero_or
      rw [hor]
      exact hflag
    cases pc with
    | testCatch symbol =>
      have hset : settled (tryEventStep ⟨s, .testCatch symbol⟩ .int3) =
          onward (markFlag (int3Vect s) catchDecoded) := if_neg (not_not.mpr hwindow)
      rw [hset] at hblank
      exact hmark catchDecoded (by decide) hblank.1
    | markCatch => exact hmark catchDecoded (by decide) hblank.1
    | mark f => exact hmark f.flag (by cases f <;> decide) hblank.1
    | _ => exact hwindow
  · intro hwindow
    have hdec : (settled (tryEventStep t .int3)).state.decoder = _ := (settled_int3 hwindow).1
    rw [hdec]
    exact blank_decodeInit _

/-! ### `decode_try` preempted -/

/-- After any run the handler comes between two statements. If nothing arrives
before the interrupted call returns, it leaves the header as `decode_init` sets
it exactly when the handler has not come into the window. Outside the window,
whatever arrives then, the messages of the frames that follow are decoded in
order behind those decoded before. -/
theorem decode_try_preempted (before : List TryEvent) :
    let t := run tryEventStep ⟨init, .idle⟩ before
    (∀ es, .int3 ∉ es → tryArrivals es = [] →
      (run tryEventStep (tryEventStep t .int3) es).pc = .idle →
      (Blank (run tryEventStep (tryEventStep t .int3) es).state.decoder ↔ ¬ InWindow t.pc)) ∧
    (¬ InWindow t.pc → ∀ (ms : List Message) (junk : List Byte) (es : List TryEvent),
      (∀ m ∈ ms, m.payload.length ≤ inSize) → eyeCatch ∉ junk → .int3 ∉ es →
      tryArrivals es <+: junk ++ wire ms →
      Along tryEventStep Undisturbed (tryEventStep t .int3) es →
      (run tryEventStep (tryEventStep t .int3) es).state.decoder.calls <+:
          t.state.decoder.calls ++ owed t ++ ms ∧
        (tryArrivals es = junk ++ wire ms → ∃ k, ∀ j, k ≤ j →
          Along tryEventStep Undisturbed (run tryEventStep (tryEventStep t .int3) es)
            (List.replicate j (.main .decodeStep)) →
          (run tryEventStep (run tryEventStep (tryEventStep t .int3) es)
            (List.replicate j (.main .decodeStep))).state.decoder.calls =
              t.state.decoder.calls ++ owed t ++ ms)) := by
  intro t
  have hsound : Sound t.state := run_keeps (I := fun t : TryCpu => Sound t.state)
    (fun _ e h => tryEventStep_sound h e) before init_sound
  constructor
  · intro es hno hquiet hidle
    have hstays := (stays_int3 t).run hno hquiet
    rw [← window_iff, blank_iff, blank_iff, ← hstays.header]
    generalize run tryEventStep (tryEventStep t .int3) es = t' at hidle
    obtain ⟨s, pc⟩ := t'
    dsimp only at hidle
    subst hidle
    rfl
  · intro hwindow ms junk es small hjunk hno hstream hown
    have hall : ∀ m ∈ t.state.decoder.calls ++ owed t ++ ms, m.payload.length ≤ inSize := by
      intro m hm
      rcases List.mem_append.mp hm with hm | hm
      · rcases List.mem_append.mp hm with hm | hm
        · exact hsound.calls m hm
        · exact owed_small hsound m hm
      · exact small m hm
    obtain ⟨coming, hcoming⟩ := hstream
    have hstart := follows_int3 hsound hwindow hjunk small
    rw [← hcoming] at hstart
    have hfollows := hstart.run hall hno hown
    refine ⟨(calls_settled _).trans hfollows.reads.calls_prefix, fun heq => ?_⟩
    have hnone : coming = [] := by
      rw [heq] at hcoming
      exact List.append_right_eq_self.mp hcoming
    rw [hnone] at hfollows
    exact hfollows.eventually hall

def statements (n : ℕ) : List TryEvent := List.replicate n (.main .decodeStep)

def arriveStatements (bytes : List Byte) : List TryEvent :=
  bytes.flatMap fun b => .arrive b :: statements 8

/-- The eye catch has been read, the size byte is not there yet. -/
def beforeSize : List TryEvent := .arrive eyeCatch :: statements 5

theorem decode_try_preempted_before_size :
    Blank (run tryEventStep (tryEventStep (run tryEventStep ⟨init, .idle⟩ beforeSize) .int3)
        (statements 2)).state.decoder ∧
      (run tryEventStep (tryEventStep (run tryEventStep ⟨init, .idle⟩ beforeSize) .int3)
        (statements 2 ++ arriveStatements
          (wire [⟨7, msgIdSyncClock, [12, 30]⟩]))).state.decoder.calls <+:
        [⟨7, msgIdSyncClock, [12, 30]⟩] := by
  obtain ⟨hheader, hframes⟩ := decode_try_preempted beforeSize
  refine ⟨(hheader (statements 2) (by decide) (by decide) (by decide +kernel)).mpr
    (by decide +kernel), ?_⟩
  exact (hframes (by decide +kernel) [⟨7, msgIdSyncClock, [12, 30]⟩] [] _ (by decide) (by decide)
    (by decide +kernel) (by decide +kernel) (by decide +kernel)).1

/-- The size byte has been read, its flag is not yet set: it is set on top of
`decode_init`, and the frame that follows is never decoded. -/
theorem size_flag_survives :
    let t := run tryEventStep ⟨init, .idle⟩
      ([TryEvent.arrive eyeCatch, .arrive 3] ++ statements 7 ++ [TryEvent.int3] ++ statements 3)
    t.pc = .idle ∧ t.state.decoder.decoded = sizeDecoded ∧
      (run tryEventStep t (arriveStatements (wire [⟨7, msgIdSyncClock, [12, 30]⟩]) ++
        statements 8)).state.decoder.calls = [] := by
  decide +kernel

end LedServer.Avr
