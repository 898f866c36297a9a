import LedServer.AvrDecodeFlow

set_option autoImplicit false

/-!
# The main loop

Its calls, and `decode_try` access by access so that bytes can be exchanged in
between. What each does to the link is one of three deeds: it is quiet, it lets
the postponed reply go, or it invokes `decode`.
-/
namespace LedServer.Avr
open AvrRing

inductive MainEvent where
  | decodeStep
  | postponeTry
  | cronTry
  | counterTry
  | rotor (id action : Byte)
  | int2
deriving DecidableEq

/-- The other calls of the main loop come when `decode_try` has returned. -/
def outside (c : Cpu) (f : State → State) : Cpu :=
  if c.pc = .idle then { c with state := f c.state } else c

def mainStep (c : Cpu) : MainEvent → Cpu
  | .decodeStep => decodeStep c
  | .postponeTry => outside c postponeTryState
  | .cronTry => outside c cronTry
  | .counterTry => outside c fun s => { s with timers := interruptFunction s.timers }
  | .rotor id action => outside c fun s => menuHandleRotor s id action
  | .int2 => { c with state := { c.state with twi := int2Vect c.state.twi } }

/-- `ISR (SPI_STC_vect)`, at any place of the main loop. -/
def exchangeStep (c : Cpu) (received : Byte) : Cpu :=
  { c with state := { c.state with link := spiStcVect c.state.link received } }

/-! ### Deeds -/

/-- The STATUS that answers `call`. -/
def IsReply (call r : Message) : Prop :=
  r.serial = call.serial ∧ r.id = msgIdStatus ∧ ∃ status, r.payload = [status, call.id]

/-- How the answer to `call` is disposed of: the slot before and after, the
messages made, put into `write_buf` and dropped. -/
inductive Replies (call : Message) : Option Message → Option Message →
    List Message → List Message → List Message → Prop where
  | silent {held : Option Message} (h : ¬ Answered call) : Replies call held held [] [] []
  | ignored {held : Option Message} {r : Message} {out : List Message} (h : Answered call)
      (hr : IsReply call r) (hz : r.serial = serialIdToIgnore) (hout : out.Sublist [r]) :
      Replies call held held [r] out []
  | held {r : Message} (h : Answered call) (hr : IsReply call r)
      (hz : r.serial ≠ serialIdToIgnore) : Replies call none (some r) [r] [] []
  | lost {k r : Message} (h : Answered call) (hr : IsReply call r)
      (hz : r.serial ≠ serialIdToIgnore) : Replies call (some k) (some k) [r] [] [r]

/-- What `call` does to `shift_data`. -/
def Shifts (call : Message) (f f' : Flush) : Prop :=
  (call.id = msgIdLedArray ∧ ∃ arr n, call.payload = arr.take n.toNat ∧
      f' = (flushShiftData f arr n).1) ∨
    (call.id ≠ msgIdLedArray ∧ FlushQuiet f f')

/-- What a step does, besides reading: the slot before and after, the messages
made, put into `write_buf` and dropped. -/
inductive Deed (s s' : State) : Option Message → Option Message →
    List Message → List Message → List Message → Prop where
  | quiet {held : Option Message} {made out : List Message}
      (calls : s'.decoder.calls = s.decoder.calls) (flush : FlushQuiet s.flush s'.flush)
      (hz : ∀ m ∈ made, m.serial = serialIdToIgnore) (hout : out.Sublist made) :
      Deed s s' held held made out []
  | frees {m : Message} (calls : s'.decoder.calls = s.decoder.calls) (flush : s'.flush = s.flush)
      (space : flushShiftBufferSpace s.flush ≥ enoughSpace) :
      Deed s s' (some m) none [] [m] []
  | decodes {call : Message} {held held' : Option Message}
      {made out made' out' lost : List Message}
      (calls : s'.decoder.calls = s.decoder.calls ++ [call]) (flush : Shifts call s.flush s'.flush)
      (hz : ∀ m ∈ made, m.serial = serialIdToIgnore) (hout : out.Sublist made)
      (replies : Replies call held held' made' out' lost) :
      Deed s s' held held' (made ++ made') (out ++ out') lost

/-- The link but for `read_buf` and the slot. -/
structure Emits (l l' : Link) (made out lost : List Message) : Prop where
  spdr : l'.spdr = l.spdr
  loaded : l'.loaded = l.loaded
  contents : l'.writeBuf.contents = l.writeBuf.contents ++ out.flatMap Message.frame
  created : l'.created = l.created ++ made.map Message.frame
  discarded : l'.discarded = l.discarded ++ lost.map Message.frame

/-- The deed of a step from a link with `sent` in `write_buf` and `held` in the slot. -/
def Does (s s' : State) (sent : List Message) (held : Option Message) : Prop :=
  ∃ held' made out lost, Flows s'.link (sent ++ out) held' ∧ Emits s.link s'.link made out lost ∧
    Deed s s' held held' made out lost

theorem Sends.emits {l l' : Link} {made out lost : List Message} (h : Sends l l' out)
    (hc : l'.created = l.created ++ made.map Message.frame)
    (hd : l'.discarded = l.discarded ++ lost.map Message.frame) : Emits l l' made out lost :=
  ⟨h.spdr, h.loaded, h.contents, hc, hd⟩

theorem Emits.trans {l₁ l₂ l₃ : Link} {made made' out out' lost lost' : List Message}
    (h : Emits l₁ l₂ made out lost) (h' : Emits l₂ l₃ made' out' lost') :
    Emits l₁ l₃ (made ++ made') (out ++ out') (lost ++ lost') where
  spdr := h'.spdr.trans h.spdr
  loaded := h'.loaded.trans h.loaded
  contents := by rw [h'.contents, h.contents, List.flatMap_append, List.append_assoc]
  created := by rw [h'.created, h.created, List.map_append, List.append_assoc]
  discarded := by rw [h'.discarded, h.discarded, List.map_append, List.append_assoc]

/-- Reading changes `read_buf` only. -/
theorem Flows.read {l : Link} {sent : List Message} {held : Option Message} (h : Flows l sent held)
    {readBuf : Buffer} (hv : readBuf.Valid) : Flows { l with readBuf := readBuf } sent held := by
  refine ⟨hv, h.writeValid, h.room, h.written, h.small, ?_⟩
  have hslot := h.slot
  cases held <;> exact hslot

theorem Quiet.does {s s' : State} (h : Quiet s s') {sent : List Message} {held : Option Message}
    (hf : Flows s.link sent held) : Does s s' sent held := by
  obtain ⟨made, out, hz, hsub, hf', hs, hc, hd⟩ := h.link.flows sent held hf
  exact ⟨held, made, out, [], hf', hs.emits hc (by simpa using hd),
    .quiet (by rw [h.decoder]) h.flush hz hsub⟩

theorem postponeTryState_does {s : State} {sent : List Message} {held : Option Message}
    (hf : Flows s.link sent held) : Does s (postponeTryState s) sent held := by
  rcases postponeTry_flows hf (flushShiftBufferSpace s.flush) with
    hno | ⟨m, rfl, hspace, hf', hs, hc, hd⟩
  · have hsame : postponeTryState s = s := by rw [postponeTryState, hno]
    rw [hsame]
    exact (Quiet.refl s).does hf
  · refine ⟨none, [], [m], [], hf', hs.emits (by simpa using hc) (by simpa using hd),
      .frees rfl rfl ?_⟩
    unfold isEnoughSpace at hspace
    simp only [Bool.and_eq_true, decide_eq_true_eq] at hspace
    exact hspace.2

/-- A STATUS goes where its serial and the slot say. -/
theorem postpone_replies {l : Link} {sent : List Message} {held : Option Message}
    (hf : Flows l sent held) {call r : Message} (ha : Answered call) (hr : IsReply call r) :
    ∃ held' made out lost, Flows (postponeMessage l r.frame r.serial) (sent ++ out) held' ∧
      Emits l (postponeMessage l r.frame r.serial) made out lost ∧
      Replies call held held' made out lost := by
  have hsmall : r.payload.length ≤ 8 := by
    obtain ⟨-, -, status, hp⟩ := hr
    rw [hp]
    simp
  by_cases hz : r.serial = serialIdToIgnore
  · obtain ⟨out, hsub, hf', hs, hc, hd⟩ := postpone_ignored hf hz hsmall
    exact ⟨held, [r], out, [], hf', hs.emits (by simpa using hc) (by simpa using hd),
      .ignored ha hr hz hsub⟩
  cases held with
  | none =>
    obtain ⟨hf', hs, hc, hd⟩ := postpone_reply hf hz hsmall
    exact ⟨some r, [r], [], [], by rwa [List.append_nil],
      hs.emits (by simpa using hc) (by simpa using hd), .held ha hr hz⟩
  | some k =>
    obtain ⟨hf', hs, hc, hd⟩ := postpone_taken hf hz
    exact ⟨some k, [r], [], [r], by rwa [List.append_nil],
      hs.emits (by simpa using hc) (by simpa using hd), .lost ha hr hz⟩

theorem decodeDone_does {s : State} {sent : List Message} {held : Option Message}
    (hf : Flows s.link sent held) : Does s (decodeDone s) sent held := by
  obtain ⟨a, hdec, hl, -, hkind⟩ := decode_spec s
  obtain ⟨made, out, hz, hsub, hf₁, hs, hc, hd⟩ := hl.flows sent held hf
  have hemits : Emits s.link a.link made out [] := hs.emits hc (by simpa using hd)
  have hcalls : (decodeDone s).decoder.calls =
      s.decoder.calls ++ [decodedMessage s.decoder] := by
    rw [(decodeDone_incoming s).2]
    rfl
  -- the answer, once it is known what the message has done to `shift_data`
  have hanswer : Shifts (decodedMessage s.decoder) s.flush a.flush →
      Answered (decodedMessage s.decoder) → ∀ status,
      decode s = reply a status s.decoder.msgId → Does s (decodeDone s) sent held := by
    intro hshift ha status he
    have hr : IsReply (decodedMessage s.decoder)
        ⟨a.decoder.msgSerial, msgIdStatus, [status, s.decoder.msgId]⟩ :=
      ⟨by rw [hdec]; rfl, rfl, status, rfl⟩
    obtain ⟨held', made', out', lost, hf₂, hemits', hreplies⟩ := postpone_replies hf₁ ha hr
    have hlink : (decodeDone s).link = postponeMessage a.link
        (Message.mk a.decoder.msgSerial msgIdStatus [status, s.decoder.msgId]).frame
        a.decoder.msgSerial := by
      rw [← reply_link, ← he]
      rfl
    have hflush : (decodeDone s).flush = a.flush :=
      (congrArg State.flush he : (decode s).flush = _)
    rw [List.append_assoc] at hf₂
    exact ⟨held', made ++ made', out ++ out', lost, by rw [hlink]; exact hf₂,
      by rw [hlink]; exact hemits.trans hemits',
      .decodes hcalls (by rw [hflush]; exact hshift) hz hsub hreplies⟩
  rcases hkind with ⟨hled, hflush, he⟩ | ⟨hled, hflush, ⟨hid, he⟩ | ⟨hidle, hshake, status, he⟩⟩
  · have ha : Answered (decodedMessage s.decoder) := by
      have hid : (decodedMessage s.decoder).id = msgIdLedArray := hled
      unfold Answered
      rw [hid]
      decide
    exact hanswer (.inl ⟨hled, _, _, rfl, hflush⟩) ha _ he
  · have hsilent : ¬ Answered (decodedMessage s.decoder) := fun ha => hid.elim ha.1 ha.2
    have hlink : (decodeDone s).link = a.link := (congrArg State.link he : (decode s).link = _)
    have hflush' : (decodeDone s).flush = a.flush :=
      (congrArg State.flush he : (decode s).flush = _)
    refine ⟨held, made ++ [], out ++ [], [], by rw [hlink, List.append_nil]; exact hf₁,
      by rw [hlink, List.append_nil, List.append_nil]; exact hemits,
      .decodes hcalls (by rw [hflush']; exact .inr ⟨hled, hflush⟩) hz hsub (.silent hsilent)⟩
  · exact hanswer (.inr ⟨hled, hflush⟩) ⟨hidle, hshake⟩ status he

/-- What is read on the way changes neither the calls nor the rest of the link. -/
theorem Does.after_read {s s' : State} {readBuf : Buffer} {d : Decoder}
    (hcalls : d.calls = s.decoder.calls) {sent : List Message} {held : Option Message}
    (h : Does { s with link := { s.link with readBuf := readBuf }, decoder := d } s' sent held) :
    Does s s' sent held := by
  obtain ⟨held', made, out, lost, hf, he, hdeed⟩ := h
  refine ⟨held', made, out, lost, hf, ⟨he.spdr, he.loaded, he.contents, he.created, he.discarded⟩,
    ?_⟩
  cases hdeed with
  | quiet calls flush hz hout => exact .quiet (calls.trans hcalls) flush hz hout
  | frees calls flush space => exact .frees (calls.trans hcalls) flush space
  | decodes calls flush hz hout replies =>
    exact .decodes (by rw [calls, ← hcalls]) flush hz hout replies

/-- An access to `read_buf` reads, and the one to the payload may then decode. -/
theorem decodeStep_cases {c : Cpu} (hv : c.state.link.readBuf.Valid) :
    ∃ (readBuf : Buffer) (d : Decoder), readBuf.Valid ∧
      readBuf.contents <:+ c.state.link.readBuf.contents ∧ d.calls = c.state.decoder.calls ∧
      ((decodeStep c).state =
          { c.state with link := { c.state.link with readBuf := readBuf }, decoder := d } ∨
        (c.pc = .readPayload ∧ d.msgSize = c.state.decoder.msgSize ∧
          (decodeStep c).state = decodeDone
            { c.state with link := { c.state.link with readBuf := readBuf }, decoder := d })) := by
  obtain ⟨s, pc⟩ := c
  have hsymbol : (bufferByteDrain s.link.readBuf).1.Valid := bufferByteDrain_valid hv
  have hrest : (bufferByteDrain s.link.readBuf).1.contents <:+ s.link.readBuf.contents :=
    bufferByteDrain_suffix hv
  have hfield : ∀ (flag : Byte) (store : Decoder → Byte → Decoder),
      (∀ d b, (store d b).calls = d.calls) → ∃ (readBuf : Buffer) (d : Decoder), readBuf.Valid ∧
        readBuf.contents <:+ s.link.readBuf.contents ∧ d.calls = s.decoder.calls ∧ (stepField flag store s).state =
          { s with link := { s.link with readBuf := readBuf }, decoder := d } := by
    intro flag store hstore
    unfold stepField readSymbol spiReadSymbol
    dsimp only
    cases (bufferByteDrain s.link.readBuf).2 with
    | none => exact ⟨_, s.decoder, hsymbol, hrest, rfl, rfl⟩
    | some symbol =>
      exact ⟨_, { store s.decoder symbol with decoded := (store s.decoder symbol).decoded ||| flag },
        hsymbol, hrest, hstore s.decoder symbol, rfl⟩
  have hheader : ∀ (flag : Byte) (store : Decoder → Byte → Decoder),
      (∀ d b, (store d b).calls = d.calls) → decodeStep ⟨s, pc⟩ = stepField flag store s →
      ∃ (readBuf : Buffer) (d : Decoder), readBuf.Valid ∧
        readBuf.contents <:+ s.link.readBuf.contents ∧ d.calls = s.decoder.calls ∧
        ((decodeStep ⟨s, pc⟩).state =
            { s with link := { s.link with readBuf := readBuf }, decoder := d } ∨
          (pc = .readPayload ∧ d.msgSize = s.decoder.msgSize ∧
            (decodeStep ⟨s, pc⟩).state = decodeDone
              { s with link := { s.link with readBuf := readBuf }, decoder := d })) := by
    intro flag store hstore hstep
    obtain ⟨readBuf, d, hv', hr, hd, he⟩ := hfield flag store hstore
    exact ⟨readBuf, d, hv', hr, hd, .inl (by rw [hstep, he])⟩
  cases pc with
  | idle =>
    refine ⟨s.link.readBuf, s.decoder, hv, List.suffix_rfl, rfl, .inl ?_⟩
    unfold decodeStep
    dsimp only
    split_ifs <;> rfl
  | readCatch =>
    unfold decodeStep readSymbol spiReadSymbol
    dsimp only
    cases (bufferByteDrain s.link.readBuf).2 with
    | none => exact ⟨_, s.decoder, hsymbol, hrest, rfl, .inl rfl⟩
    | some symbol =>
      dsimp only
      split_ifs
      · exact ⟨_, s.decoder, hsymbol, hrest, rfl, .inl rfl⟩
      · exact ⟨_, { s.decoder with decoded := s.decoder.decoded ||| catchDecoded }, hsymbol, hrest, rfl,
          .inl rfl⟩
  | readSize => exact hheader sizeDecoded storeSize (fun _ _ => rfl) rfl
  | readSerial => exact hheader serialDecoded storeSerial (fun _ _ => rfl) rfl
  | readMsgId => exact hheader msgIdDecoded storeMsgId (fun _ _ => rfl) rfl
  | readPayload =>
    have harray : (bufferArrayDrain s.link.readBuf s.decoder.inBuf (s.decoder.msgSize - 2)).1.Valid :=
      bufferArrayDrain_valid hv _ _
    have hleft := bufferArrayDrain_suffix hv s.decoder.inBuf (s.decoder.msgSize - 2)
    let d : Decoder := (readPayload s).1.decoder
    unfold decodeStep readPayload spiReadArray
    dsimp only
    cases (bufferArrayDrain s.link.readBuf s.decoder.inBuf (s.decoder.msgSize - 2)).2.2 with
    | false => exact ⟨_, d, harray, hleft, rfl, .inl rfl⟩
    | true => exact ⟨_, d, harray, hleft, rfl, .inr ⟨rfl, rfl, rfl⟩⟩

theorem decodeStep_does {c : Cpu} {sent : List Message} {held : Option Message}
    (hf : Flows c.state.link sent held) : Does c.state (decodeStep c).state sent held := by
  obtain ⟨readBuf, d, hv, -, hcalls, he | ⟨-, -, he⟩⟩ := decodeStep_cases hf.readValid
  · rw [he]
    exact Does.after_read hcalls ((Quiet.refl _).does (hf.read hv))
  · rw [he]
    exact Does.after_read hcalls (decodeDone_does (hf.read hv))

theorem interruptFunction_same (t : Timers) :
    (interruptFunction t).callback = t.callback ∧
      (interruptFunction t).callbackArray = t.callbackArray := by
  have hstep : ∀ (t : Timers) (i : CronId), (interruptStep t i).callback = t.callback ∧
      (interruptStep t i).callbackArray = t.callbackArray := by
    intro t i
    unfold interruptStep
    cases t.callbackArray i with
    | none => exact ⟨rfl, rfl⟩
    | some cb =>
      dsimp only
      split_ifs <;> exact ⟨rfl, rfl⟩
  unfold interruptFunction
  induction CronId.all generalizing t with
  | nil => exact ⟨rfl, rfl⟩
  | cons i is ih =>
    obtain ⟨h, h'⟩ := ih (interruptStep t i)
    obtain ⟨hs, hs'⟩ := hstep t i
    exact ⟨h.trans hs, h'.trans hs'⟩

theorem quiet_counterTry (s : State) :
    Quiet s { s with timers := interruptFunction s.timers } := by
  obtain ⟨hc, ha⟩ := interruptFunction_same s.timers
  exact .of_timers (fun h => hc ▸ h) (by rw [ha])

/-- Every step of the main loop is one of the three deeds. -/
theorem mainStep_does {c : Cpu} {sent : List Message} {held : Option Message}
    (hf : Flows c.state.link sent held) (e : MainEvent) :
    Does c.state (mainStep c e).state sent held := by
  have houtside : ∀ f : State → State, Does c.state (f c.state) sent held →
      Does c.state (outside c f).state sent held := by
    intro f h
    unfold outside
    split_ifs
    · exact h
    · exact (Quiet.refl _).does hf
  cases e with
  | decodeStep => exact decodeStep_does hf
  | postponeTry => exact houtside _ (postponeTryState_does hf)
  | cronTry => exact houtside _ ((quiet_cronTry _).does hf)
  | counterTry => exact houtside _ ((quiet_counterTry _).does hf)
  | rotor id action => exact houtside _ ((quiet_menuHandleRotor _ id action).does hf)
  | int2 => exact (quiet_twi _ _).does hf

/-- Only `decode_try` reads. -/
theorem mainStep_incoming (c : Cpu) (e : MainEvent) :
    e = .decodeStep ∨ ((mainStep c e).pc = c.pc ∧
      (mainStep c e).state.link.readBuf = c.state.link.readBuf ∧
      (mainStep c e).state.decoder = c.state.decoder) := by
  have houtside : ∀ f : State → State, (f c.state).link.readBuf = c.state.link.readBuf →
      (f c.state).decoder = c.state.decoder →
      (outside c f).pc = c.pc ∧ (outside c f).state.link.readBuf = c.state.link.readBuf ∧
        (outside c f).state.decoder = c.state.decoder := by
    intro f hl hd
    unfold outside
    split_ifs
    · exact ⟨rfl, hl, hd⟩
    · exact ⟨rfl, rfl, rfl⟩
  have hquiet : ∀ f : State → State, Quiet c.state (f c.state) →
      (outside c f).pc = c.pc ∧ (outside c f).state.link.readBuf = c.state.link.readBuf ∧
        (outside c f).state.decoder = c.state.decoder :=
    fun f h => houtside f h.link.readBuf h.decoder
  cases e with
  | decodeStep => exact .inl rfl
  | postponeTry =>
    refine .inr (houtside _ ?_ rfl)
    unfold postponeTryState postponeTry
    dsimp only
    split_ifs <;> rfl
  | cronTry => exact .inr (hquiet _ (quiet_cronTry _))
  | counterTry => exact .inr (hquiet _ (quiet_counterTry _))
  | rotor id action => exact .inr (hquiet _ (quiet_menuHandleRotor _ id action))
  | int2 =>
    have hpc : ∀ s : State, ({ c with state := s } : Cpu).pc = c.pc := fun _ => rfl
    exact .inr ⟨hpc _, (quiet_twi _ _).link.readBuf, (quiet_twi _ _).decoder⟩

theorem mainStep_readBuf {c : Cpu} (hv : c.state.link.readBuf.Valid) (e : MainEvent) :
    (mainStep c e).state.link.readBuf.contents <:+ c.state.link.readBuf.contents := by
  rcases mainStep_incoming c e with rfl | ⟨-, hbuf, -⟩
  · obtain ⟨readBuf, d, -, hsuffix, -, he | ⟨-, -, he⟩⟩ := decodeStep_cases hv
    · rw [mainStep, he]
      exact hsuffix
    · rw [mainStep, he, (decodeDone_incoming _).1]
      exact hsuffix
  · rw [hbuf]

end LedServer.Avr
