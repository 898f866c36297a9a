import LedServer.AvrLoop
import LedServer.DecodeStream

set_option autoImplicit false

/-!
# The Pi daemon starts over

It drives the reset line, `INT3_vect` clears both buffers and the decoder and
sends VERSION. What the slot of `postpone.c` and `SPDR` hold is left there.
-/
namespace LedServer.Avr
open AvrRing Machine Mcu

inductive LiveEvent where
  | main (e : MainEvent)
  | exchange (received : Byte)

def liveStep (c : Cpu) : LiveEvent → Cpu
  | .main e => mainStep c e
  | .exchange received => exchangeStep c received

/-- A life of the AVR: the reset comes between two calls of the main loop. -/
inductive AvrEvent where
  | live (e : LiveEvent)
  | int3

def avrStep (c : Cpu) : AvrEvent → Cpu
  | .live e => liveStep c e
  | .int3 => outside c int3Vect

/-- The AVR and what the daemon has received and sent since its start: an
exchange takes `SPDR` to the master. -/
structure Session where
  cpu : Cpu
  received : List Byte
  sent : List Byte

def sessionStep (t : Session) (e : LiveEvent) : Session where
  cpu := liveStep t.cpu e
  received := t.received ++ match e with
    | .exchange _ => [t.cpu.state.link.spdr]
    | .main _ => []
  sent := t.sent ++ match e with
    | .exchange received => [received]
    | .main _ => []

/-- The daemon starts, with nothing parsed and nothing pending. -/
def restart (c : Cpu) : Session := ⟨avrStep c .int3, [], []⟩

def versionMessage : Message := ⟨serialIdToIgnore, msgIdVersion, [protocolVersion]⟩

/-- What the reset leaves behind does no harm: no reply in the slot, and a filler
in `SPDR`. -/
def ResetClean (s : State) : Prop := s.link.postponedSize = 0 ∧ IsFiller s.link.spdr

instance (s : State) : Decidable (ResetClean s) := inferInstanceAs (Decidable (_ ∧ _))

/-- Everything the daemon has received since the reset of `s` is of messages made
since, `ms` being those that went into `write_buf`. -/
structure Afresh (s : State) (t : Session) (ms made calls : List Message) : Prop where
  created : t.cpu.state.link.created = s.link.created ++ made.map Message.frame
  written : t.cpu.state.link.written = s.link.written ++ ms.map Message.frame
  invoked : t.cpu.state.decoder.calls = s.decoder.calls ++ calls
  version : ms.head? = some versionMessage
  own : ∀ m ∈ ms, m ∈ made
  replies : ∀ m ∈ ms, m.serial ≠ serialIdToIgnore → ∃ call ∈ calls, IsReply call m
  heard : ∀ call ∈ calls, call.serial ∈ t.sent
  bytes : ∃ out, Padded t.received out ∧ out <+: ms.flatMap Message.frame
  first : (parse [] t.received).2 = [] ∨
    (parse [] t.received).2.head? = some versionMessage.body

/-! ### The reset -/

theorem int3Vect_spdr (s : State) : (int3Vect s).link.spdr = s.link.spdr := by
  unfold int3Vect encodeMsg1 postponeMessage
  dsimp only
  split_ifs <;> rfl

theorem int3Vect_flows {s : State} {sent : List Message} {held : Option Message}
    (hf : Flows s.link sent held) :
    Flows (int3Vect s).link (sent ++ [versionMessage]) held ∧
      (int3Vect s).link.writeBuf.contents = versionMessage.frame ∧
      (int3Vect s).link.readBuf.contents = [] ∧
      (int3Vect s).link.created = s.link.created ++ [versionMessage.frame] := by
  let l : Link := { s.link with
    readBuf := bufferClear s.link.readBuf
    writeBuf := bufferClear s.link.writeBuf
    confirm := true }
  have hread : l.readBuf.contents = [] := ringClear_contents _
  have hwrite : l.writeBuf.contents = [] := ringClear_contents _
  have hcount : l.writeBuf.count = 0 := by rw [← contents_length, hwrite, List.length_nil]
  have hl : Flows l sent held := by
    refine ⟨bufferClear_valid _, bufferClear_valid _, ?_, hf.written, hf.small, ?_⟩
    · rw [hcount]
      exact Nat.zero_le _
    · have hslot := hf.slot
      cases held <;> exact hslot
  have hroom : isWritable l = true := by
    rw [isWritable_iff hl.writeValid, hcount]
    exact Nat.zero_le _
  obtain ⟨hf', hs, hc, -⟩ := postpone_written hl (m := versionMessage) rfl (by decide) hroom
  refine ⟨hf', ?_, ?_, hc⟩
  · have hcontents := hs.contents
    rw [hwrite, List.nil_append, List.flatMap_singleton] at hcontents
    exact hcontents
  · exact (congrArg AvrRing.Ring.contents hs.readBuf).trans hread

/-! ### What `decode_try` works on has arrived since -/

/-- The bytes in `read_buf`, the serial the decoder has read and those of the
messages decoded after `old` are all among `bytes`. -/
structure Hears (old : List Message) (bytes : List Byte) (c : Cpu) : Prop where
  valid : c.state.link.readBuf.Valid
  flags : Ordered c.state.decoder.decoded
  place : c.pc = .idle ∨ c.pc = nextPc c.state.decoder.decoded
  buffer : ∀ b ∈ c.state.link.readBuf.contents, b ∈ bytes
  serial : c.state.decoder.decoded = 7 ∨ c.state.decoder.decoded = 15 →
    c.state.decoder.msgSerial ∈ bytes
  calls : ∃ calls, c.state.decoder.calls = old ++ calls ∧ ∀ call ∈ calls, call.serial ∈ bytes

theorem spiStcVect_prefix {l : Link} (h : l.readBuf.Valid) (received : Byte) :
    (spiStcVect l received).readBuf.Valid ∧
      (spiStcVect l received).readBuf.contents <+: l.readBuf.contents ++ [received] := by
  have hfill := bufferByteFill_prefix h received
  have hvalid : (bufferByteFill l.readBuf received).1.Valid := byteFill_valid h received
  unfold spiStcVect
  revert hfill hvalid
  rcases bufferByteFill l.readBuf received with ⟨readBuf, _ | _⟩
  · exact fun _ _ => ⟨h, List.prefix_append _ _⟩
  · dsimp only
    rcases bufferByteDrain l.writeBuf with ⟨writeBuf, _ | toSend⟩ <;>
      exact fun hfill hvalid => ⟨hvalid, hfill⟩

section Hearing

variable {old : List Message} {bytes : List Byte} {c : Cpu}

theorem Hears.exchange (h : Hears old bytes c) (received : Byte) :
    Hears old (bytes ++ [received]) (exchangeStep c received) := by
  obtain ⟨hvalid, hpre⟩ := spiStcVect_prefix h.valid received
  obtain ⟨calls, hcalls, hserials⟩ := h.calls
  refine ⟨hvalid, h.flags, h.place, fun b hb => ?_,
    fun hd => List.mem_append_left _ (h.serial hd), calls, hcalls,
    fun call hc => List.mem_append_left _ (hserials call hc)⟩
  rcases List.mem_append.mp (hpre.mem hb) with hb | hb
  · exact List.mem_append_left _ (h.buffer b hb)
  · exact List.mem_append_right _ hb

/-- The payload read or not, the decoder had its serial from `bytes`. -/
theorem Hears.payload (h : Hears old bytes c) (hpay : c.pc = .readPayload)
    (hd : c.state.decoder.decoded = 15) : Hears old bytes (decodeStep c) := by
  obtain ⟨s, pc⟩ := c
  dsimp only at hpay hd
  subst hpay
  obtain ⟨calls, hcalls, hserials⟩ := h.calls
  have hserial : s.decoder.msgSerial ∈ bytes := h.serial (.inr hd)
  have hvalid := bufferArrayDrain_valid h.valid s.decoder.inBuf (s.decoder.msgSize - 2)
  have hbuffer : ∀ b ∈ (bufferArrayDrain s.link.readBuf s.decoder.inBuf
      (s.decoder.msgSize - 2)).1.contents, b ∈ bytes :=
    fun b hb => h.buffer b ((bufferArrayDrain_suffix h.valid _ _).mem hb)
  unfold decodeStep
  dsimp only
  rcases hread : readPayload s with ⟨s', ok⟩
  have hs' : s' = (readPayload s).1 := by rw [hread]
  cases ok with
  | false =>
    rw [hs']
    exact ⟨hvalid, h.flags, .inl rfl, hbuffer, fun _ => hserial, calls, hcalls, hserials⟩
  | true =>
    obtain ⟨hbuf, hdec⟩ := decodeDone_incoming s'
    dsimp only
    refine ⟨?_, ?_, .inl rfl, ?_, ?_, calls ++ [decodedMessage s'.decoder], ?_, ?_⟩
    · rw [hbuf, hs']
      exact hvalid
    · rw [hdec]
      exact .inl rfl
    · rw [hbuf, hs']
      exact hbuffer
    · rw [hdec]
      intro hz
      exact absurd hz (by simp [decodeInit])
    · rw [hdec, ← List.append_assoc, ← hcalls, hs']
      rfl
    · intro call hc
      rcases List.mem_append.mp hc with hc | hc
      · exact hserials call hc
      · rw [List.mem_singleton.mp hc, hs']
        exact hserial

theorem Hears.header (h : Hears old bytes c) {b : Byte} (hb : b ∈ bytes)
    (hne : nextPc c.state.decoder.decoded ≠ .readPayload) :
    (takeSymbol c.state.decoder b).decoded = 7 ∨ (takeSymbol c.state.decoder b).decoded = 15 →
      (takeSymbol c.state.decoder b).msgSerial ∈ bytes := by
  rcases h.flags with hd | hd | hd | hd | hd
  · rw [takeSymbol, hd, show nextPc 0 = .readCatch by decide]
    dsimp only
    split_ifs
    · rw [hd]
      exact fun hz => absurd hz (by decide)
    · exact fun hz => absurd hz (show ¬ ((1 : Byte) = 7 ∨ (1 : Byte) = 15) by decide)
  · rw [takeSymbol, hd, show nextPc 1 = .readSize by decide]
    exact fun hz => absurd hz (show ¬ ((3 : Byte) = 7 ∨ (3 : Byte) = 15) by decide)
  · rw [takeSymbol, hd, show nextPc 3 = .readSerial by decide]
    exact fun _ => hb
  · rw [takeSymbol, hd, show nextPc 7 = .readMsgId by decide]
    exact fun _ => h.serial (.inl hd)
  · rw [hd] at hne
    exact absurd (by decide) hne

theorem Hears.step (h : Hears old bytes c) : Hears old bytes (decodeStep c) := by
  by_cases hidle : c.pc = .idle
  · obtain ⟨s, pc⟩ := c
    dsimp only at hidle
    subst hidle
    unfold decodeStep
    dsimp only
    split_ifs
    · exact h
    · exact ⟨h.valid, h.flags, .inr rfl, h.buffer, h.serial, h.calls⟩
  have hpc : c.pc = nextPc c.state.decoder.decoded := h.place.resolve_left hidle
  by_cases hpay : c.pc = .readPayload
  · exact h.payload hpay (decoded_of_readPayload h.flags (hpc ▸ hpay))
  cases hc : c.state.link.readBuf.contents with
  | nil =>
    rw [decodeStep_nil hpc hpay hc]
    exact ⟨h.valid, h.flags, .inl rfl, h.buffer, h.serial, h.calls⟩
  | cons b rest =>
    have hb : b ∈ bytes := h.buffer b (by rw [hc]; exact List.mem_cons_self)
    obtain ⟨-, hord, -, hcalls, -⟩ := phaseOf_takeSymbol h.flags (hpc ▸ hpay) b
    obtain ⟨buf, pc, heq, hbv, hbr, hplace⟩ := decodeStep_cons h.valid hpc hpay hc
    rw [heq]
    refine ⟨hbv, hord, hplace.imp_left And.left, fun x hx => h.buffer x ?_,
      h.header hb (hpc ▸ hpay), ?_⟩
    · dsimp only at hx
      rw [hbr] at hx
      rw [hc]
      exact List.mem_cons_of_mem _ hx
    · dsimp only
      rw [hcalls]
      exact h.calls

theorem Hears.main (h : Hears old bytes c) (e : MainEvent) : Hears old bytes (mainStep c e) := by
  rcases mainStep_incoming c e with rfl | ⟨hpc, hbuf, hdec⟩
  · exact h.step
  · refine ⟨?_, ?_, ?_, ?_, ?_, ?_⟩
    · rw [hbuf]; exact h.valid
    · rw [hdec]; exact h.flags
    · rw [hpc, hdec]; exact h.place
    · rw [hbuf]; exact h.buffer
    · rw [hdec]; exact h.serial
    · rw [hdec]; exact h.calls

end Hearing

/-! ### What goes out since the reset -/

/-- Since the reset of `s`: `ms` have gone into `write_buf` and `out` of their
bytes into `SPDR`, padded to `bytes`; `filler` was there before. -/
structure Restarted (s : State) (t : Session) (ms made calls : List Message)
    (held : Option Message) (filler : Byte) (bytes out : List Byte) : Prop where
  flows : ∃ before, s.link.written = before.map Message.frame ∧
    Flows t.cpu.state.link (before ++ ms) held
  created : t.cpu.state.link.created = s.link.created ++ made.map Message.frame
  invoked : t.cpu.state.decoder.calls = s.decoder.calls ++ calls
  version : ∃ rest, ms = versionMessage :: rest
  own : ∀ m ∈ ms, m ∈ made
  replies : ∀ m ∈ made, m.serial ≠ serialIdToIgnore → ∃ call ∈ calls, IsReply call m
  slot : ∀ m, held = some m → m ∈ made
  hears : Hears s.decoder.calls t.sent t.cpu
  isFiller : IsFiller filler
  heard : t.received ++ [t.cpu.state.link.spdr] = filler :: bytes
  padded : Padded bytes out
  stream : out ++ t.cpu.state.link.writeBuf.contents = ms.flatMap Message.frame
  early : bytes.length ≤ 5 → out = bytes ∧ bytes = versionMessage.frame.take bytes.length ∧
    t.cpu.state.link.readBuf.contents.length ≤ bytes.length
  late : 5 ≤ bytes.length → versionMessage.frame <+: bytes

/-- A reply is made, and put into the slot, when its message is decoded. -/
theorem Replies.made {call : Message} {held held' : Option Message} {made out lost : List Message}
    (h : Replies call held held' made out lost) :
    out.Sublist made ∧ (∀ m ∈ made, IsReply call m) ∧
      ∀ m, held' = some m → held = some m ∨ m ∈ made := by
  cases h with
  | silent => exact ⟨List.Sublist.refl _, by simp, fun m hm => .inl hm⟩
  | ignored _ hr _ hout => exact ⟨hout, by simpa using hr, fun m hm => .inl hm⟩
  | held _ hr => exact ⟨List.nil_sublist _, by simpa using hr, by simp⟩
  | lost _ hr => exact ⟨List.nil_sublist _, by simpa using hr, fun m hm => .inl hm⟩

section Sending

variable {s : State} {t : Session} {ms made calls : List Message} {held : Option Message}
  {filler : Byte} {bytes out : List Byte}

/-- A step of the main loop only makes messages of its own. -/
theorem Restarted.main (h : Restarted s t ms made calls held filler bytes out) (e : MainEvent) :
    ∃ ms made calls held, Restarted s (sessionStep t (.main e)) ms made calls held filler bytes
      out := by
  obtain ⟨before, hbefore, hf⟩ := h.flows
  have hcpu : (sessionStep t (.main e)).cpu = mainStep t.cpu e := rfl
  have hreceived : (sessionStep t (.main e)).received = t.received := List.append_nil _
  have hsent : (sessionStep t (.main e)).sent = t.sent := List.append_nil _
  obtain ⟨rest, hrest⟩ := h.version
  have hshrink := (mainStep_readBuf hf.readValid e).length_le
  -- what all deeds come to
  have hdeed : ∀ held' made' out' lost calls',
      Flows (mainStep t.cpu e).state.link (before ++ (ms ++ out')) held' →
      Emits t.cpu.state.link (mainStep t.cpu e).state.link made' out' lost →
      (mainStep t.cpu e).state.decoder.calls = t.cpu.state.decoder.calls ++ calls' →
      (∀ m ∈ out', m ∈ made ++ made') →
      (∀ m ∈ made', m.serial ≠ serialIdToIgnore → ∃ call ∈ calls', IsReply call m) →
      (∀ m, held' = some m → m ∈ made ++ made') →
      Restarted s (sessionStep t (.main e)) (ms ++ out') (made ++ made') (calls ++ calls') held'
        filler bytes out := by
    intro held' made' out' lost calls' hf' he hcalls hown hreplies hslot
    constructor
    · exact ⟨before, hbefore, hf'⟩
    · rw [hcpu, he.created, h.created, List.map_append, List.append_assoc]
    · rw [hcpu, hcalls, h.invoked, List.append_assoc]
    · exact ⟨rest ++ out', by rw [hrest, List.cons_append]⟩
    · intro m hm
      rcases List.mem_append.mp hm with hm | hm
      · exact List.mem_append_left _ (h.own m hm)
      · exact hown m hm
    · intro m hm hz
      rcases List.mem_append.mp hm with hm | hm
      · obtain ⟨call, hcall, hr⟩ := h.replies m hm hz
        exact ⟨call, List.mem_append_left _ hcall, hr⟩
      · obtain ⟨call, hcall, hr⟩ := hreplies m hm hz
        exact ⟨call, List.mem_append_right _ hcall, hr⟩
    · exact hslot
    · rw [hcpu, hsent]
      exact h.hears.main e
    · exact h.isFiller
    · rw [hcpu, hreceived, he.spdr]
      exact h.heard
    · exact h.padded
    · rw [hcpu, he.contents, ← List.append_assoc, h.stream, List.flatMap_append]
    · intro hlen
      obtain ⟨hout, htake, hcount⟩ := h.early hlen
      exact ⟨hout, htake, hshrink.trans hcount⟩
    · exact h.late
  obtain ⟨held', made', out', lost, hf', he, hkind⟩ := mainStep_does hf e
  rw [List.append_assoc] at hf'
  cases hkind with
  | quiet hcalls _ hz hout =>
    exact ⟨_, _, _, _, hdeed _ _ _ _ [] hf' he (by simpa using hcalls)
      (fun m hm => List.mem_append_right _ (hout.mem hm)) (fun m hm hn => absurd (hz m hm) hn)
      fun m hm => List.mem_append_left _ (h.slot m hm)⟩
  | @frees m hcalls =>
    exact ⟨_, _, _, _, hdeed _ _ _ _ [] hf' he (by simpa using hcalls)
      (fun k hk => by
        rw [List.mem_singleton.mp hk, List.append_nil]
        exact h.slot m rfl)
      (by simp) (by simp)⟩
  | @decodes call _ _ _ _ _ _ _ hcalls _ hz hout hreplies =>
    obtain ⟨hsub, hr, hslot⟩ := hreplies.made
    refine ⟨_, _, _, _, hdeed _ _ _ _ [call] hf' he hcalls (fun m hm => ?_) (fun m hm hn => ?_)
      fun m hm => ?_⟩
    · exact List.mem_append_right _ ((hout.append hsub).mem hm)
    · rcases List.mem_append.mp hm with hm | hm
      · exact absurd (hz m hm) hn
      · exact ⟨call, List.mem_singleton_self _, hr m hm⟩
    · rcases hslot m hm with hm | hm
      · exact List.mem_append_left _ (h.slot m hm)
      · exact List.mem_append_right _ (List.mem_append_right _ hm)

/-- Before VERSION has gone out whole there is room in `read_buf` and a byte of it
to send. -/
theorem Restarted.sends_version (h : Restarted s t ms made calls held filler bytes out)
    (hlen : bytes.length < 5) :
    t.cpu.state.link.readBuf.count < 255 ∧
      ∀ b rest, t.cpu.state.link.writeBuf.contents = b :: rest →
        out ++ [b] = bytes ++ [b] ∧
          bytes ++ [b] = versionMessage.frame.take (bytes.length + 1) := by
  obtain ⟨hout, -, hcount⟩ := h.early (by omega)
  rw [contents_length] at hcount
  refine ⟨by omega, fun b rest hc => ⟨by rw [hout], ?_⟩⟩
  obtain ⟨more, hmore⟩ := h.version
  have hstream := h.stream
  rw [hout, hc, hmore, List.flatMap_cons] at hstream
  have hprefix : bytes ++ [b] <+: versionMessage.frame ++ more.flatMap Message.frame :=
    ⟨rest, by rw [← hstream, List.append_assoc, List.singleton_append]⟩
  have hversion : versionMessage.frame.take (bytes.length + 1) <+:
      versionMessage.frame ++ more.flatMap Message.frame :=
    (List.take_prefix _ _).trans (List.prefix_append _ _)
  refine (List.prefix_of_prefix_length_le hprefix hversion ?_).eq_of_length ?_
  all_goals
    rw [List.length_append, List.length_singleton, List.length_take,
      show versionMessage.frame.length = 5 from rfl]
    omega

/-- An exchange brings the byte after VERSION's or what comes later; it cannot
bring a filler before VERSION has gone out whole. -/
theorem Restarted.exchange (h : Restarted s t ms made calls held filler bytes out)
    (received : Byte) :
    ∃ bytes out, Restarted s (sessionStep t (.exchange received)) ms made calls held filler bytes
      out := by
  obtain ⟨before, hbefore, hf⟩ := h.flows
  obtain ⟨b, hf', hspdr, -, hcreated, -, hcases⟩ := spiStcVect_flows hf received
  obtain ⟨-, hprefix⟩ := spiStcVect_prefix hf.readValid received
  have hcount := hprefix.length_le
  rw [List.length_append, List.length_singleton] at hcount
  -- the byte loaded and what it is of the stream
  have hload : ∀ out', Padded (bytes ++ [b]) out' →
      out' ++ (spiStcVect t.cpu.state.link received).writeBuf.contents =
        ms.flatMap Message.frame →
      (bytes.length < 5 → out' = bytes ++ [b] ∧
        bytes ++ [b] = versionMessage.frame.take (bytes.length + 1)) →
      Restarted s (sessionStep t (.exchange received)) ms made calls held filler (bytes ++ [b])
        out' := by
    intro out' hpadded hstream hversion
    refine ⟨⟨before, hbefore, hf'⟩, hcreated.trans h.created, h.invoked, h.version, h.own,
      h.replies, h.slot, h.hears.exchange received, h.isFiller, ?_, hpadded, hstream, ?_, ?_⟩
    · change (t.received ++ [t.cpu.state.link.spdr]) ++
        [(spiStcVect t.cpu.state.link received).spdr] = _
      rw [h.heard, hspdr]
      rfl
    · intro hlen
      rw [List.length_append, List.length_singleton] at hlen ⊢
      obtain ⟨hout, htake⟩ := hversion (by omega)
      obtain ⟨-, -, hold⟩ := h.early (by omega)
      exact ⟨hout, htake, hcount.trans (Nat.succ_le_succ hold)⟩
    · intro hlen
      rw [List.length_append, List.length_singleton] at hlen
      by_cases hlate : 5 ≤ bytes.length
      · exact (h.late hlate).trans (List.prefix_append _ _)
      · obtain ⟨-, htake⟩ := hversion (by omega)
        have hfour : bytes.length + 1 = versionMessage.frame.length :=
          (show bytes.length + 1 = 5 by omega)
        rw [htake, hfour, List.take_length]
  rcases hcases with ⟨hfull, rfl, hc⟩ | ⟨-, hc⟩ | ⟨-, rfl, hnil, hc⟩
  · refine ⟨_, _, hload out (.filler (.inr rfl) h.padded) (by rw [hc]; exact h.stream)
      fun hlen => ?_⟩
    exact absurd (h.sends_version hlen).1 hfull
  · refine ⟨_, _, hload (out ++ [b]) (.byte b h.padded) ?_ fun hlen => ?_⟩
    · rw [List.append_assoc, List.singleton_append, ← hc]
      exact h.stream
    · exact (h.sends_version hlen).2 _ _ hc
  · refine ⟨_, _, hload out (.filler (.inl rfl) h.padded) (by rw [hc, ← hnil]; exact h.stream)
      fun hlen => ?_⟩
    -- all of VERSION would have gone out
    obtain ⟨hout, -, -⟩ := h.early (by omega)
    obtain ⟨more, hmore⟩ := h.version
    have hstream := congrArg List.length h.stream
    rw [hnil, List.append_nil, hout, hmore, List.flatMap_cons, List.length_append,
      show versionMessage.frame.length = 5 from rfl] at hstream
    omega

theorem Restarted.step (h : Restarted s t ms made calls held filler bytes out) (e : LiveEvent) :
    ∃ ms made calls held bytes out,
      Restarted s (sessionStep t e) ms made calls held filler bytes out := by
  cases e with
  | main e =>
    obtain ⟨ms, made, calls, held, h'⟩ := h.main e
    exact ⟨ms, made, calls, held, bytes, out, h'⟩
  | exchange received =>
    obtain ⟨bytes, out, h'⟩ := h.exchange received
    exact ⟨ms, made, calls, held, bytes, out, h'⟩

theorem restart_restarted {c : Cpu} (idle : c.pc = .idle) {sent : List Message}
    {held : Option Message} (hf : Flows c.state.link sent held) (hclean : ResetClean c.state) :
    Restarted c.state (restart c) [versionMessage] [versionMessage] [] none c.state.link.spdr
      [] [] := by
  obtain ⟨s, pc⟩ := c
  dsimp only at idle hf hclean ⊢
  subst idle
  have hcpu : (restart ⟨s, .idle⟩).cpu = ⟨int3Vect s, .idle⟩ := by
    rw [restart, avrStep, outside, if_pos rfl]
  obtain ⟨hf', hwrite, hread, hcreated⟩ := int3Vect_flows hf
  have hfree : held = none := by
    cases held with
    | none => rfl
    | some m => exact absurd hclean.1 (held_size_ne hf.slot)
  subst hfree
  have hspdr := int3Vect_spdr s
  constructor
  · exact ⟨sent, hf.written, by rw [hcpu]; exact hf'⟩
  · rw [hcpu]
    exact hcreated
  · rw [hcpu]
    exact (List.append_nil _).symm
  · exact ⟨[], rfl⟩
  · simp
  · intro m hm hz
    rw [List.mem_singleton.mp hm] at hz
    exact absurd rfl hz
  · simp
  · rw [hcpu]
    refine ⟨hf'.readValid, .inl rfl, .inl rfl, ?_, fun hd => ?_, [], (List.append_nil _).symm,
      by simp⟩
    · dsimp only
      rw [hread]
      simp
    · exact absurd hd (show ¬ ((0 : Byte) = 7 ∨ (0 : Byte) = 15) by decide)
  · exact hclean.2
  · rw [hcpu]
    exact congrArg (fun b => [b]) hspdr
  · exact .nil
  · rw [hcpu]
    dsimp only
    rw [hwrite]
    rfl
  · intro _
    refine ⟨rfl, rfl, ?_⟩
    rw [hcpu]
    dsimp only
    rw [hread, List.length_nil]
  · intro hlen
    exact absurd hlen (by simp)

/-- The parser gets the filler, then VERSION, and only then anything else. -/
theorem Restarted.first (h : Restarted s t ms made calls held filler bytes out) :
    (parse [] t.received).2 = [] ∨
      (parse [] t.received).2.head? = some versionMessage.body := by
  have hversion : versionMessage.frame.length = 5 := rfl
  rcases List.eq_nil_or_concat bytes with hnil | ⟨front, last, hfront⟩
  · have hheard := congrArg List.length h.heard
    rw [hnil, List.length_append, List.length_singleton, List.length_singleton] at hheard
    have hnone : t.received = [] := List.length_eq_zero_iff.mp (by omega)
    rw [hnone]
    exact .inl rfl
  have hheard := h.heard
  rw [hfront, List.concat_eq_append, ← List.cons_append] at hheard
  obtain ⟨hreceived, -⟩ := List.append_inj' hheard rfl
  have hskip : parse [] t.received = parse [] front := by
    rw [hreceived, parse, StreamMachine.feed_skip (parseStep_filler h.isFiller)]
    rfl
  have hlen : bytes.length = front.length + 1 := by
    rw [hfront, List.concat_eq_append, List.length_append, List.length_singleton]
  have hpre : front <+: bytes := ⟨[last], by rw [hfront, List.concat_eq_append]⟩
  rw [hskip]
  by_cases hlate : 5 ≤ front.length
  · right
    have hin : versionMessage.frame <+: front :=
      List.prefix_of_prefix_length_le (h.late (by omega)) hpre (by rw [hversion]; exact hlate)
    obtain ⟨more, rfl⟩ := hin
    rw [parse_append, parse_frame versionMessage (by decide)]
    rfl
  · left
    obtain ⟨-, htake, -⟩ := h.early (by omega)
    have hpart : front = versionMessage.frame.take front.length := by
      have hin : front <+: versionMessage.frame :=
        hpre.trans (htake ▸ List.take_prefix _ _)
      exact List.prefix_iff_eq_take.mp hin
    rw [hpart, parse_take versionMessage (by decide) (by rw [hversion]; omega)]

theorem Restarted.afresh (h : Restarted s t ms made calls held filler bytes out) :
    Afresh s t ms made calls where
  created := h.created
  written := by
    obtain ⟨before, hbefore, hf⟩ := h.flows
    rw [hf.written, List.map_append, hbefore]
  invoked := h.invoked
  version := by
    obtain ⟨rest, hrest⟩ := h.version
    rw [hrest]
    rfl
  own := h.own
  replies m hm hz := h.replies m (h.own m hm) hz
  heard call hc := by
    obtain ⟨calls', hcalls, hserials⟩ := h.hears.calls
    rw [h.invoked] at hcalls
    exact hserials call (List.append_cancel_left hcalls ▸ hc)
  bytes := by
    have hpadded := h.padded.cons h.isFiller
    rw [← h.heard] at hpadded
    obtain ⟨front, hfront, hpre⟩ := hpadded.front
    exact ⟨front, hfront, hpre.trans ⟨_, h.stream⟩⟩
  first := h.first

end Sending

/-! ### Whole lives -/

theorem liveStep_flows {c : Cpu} (h : ∃ sent held, Flows c.state.link sent held) (e : LiveEvent) :
    ∃ sent held, Flows (liveStep c e).state.link sent held := by
  obtain ⟨sent, held, hf⟩ := h
  cases e with
  | main e =>
    obtain ⟨held', -, out, -, hf', -, -⟩ := mainStep_does hf e
    exact ⟨sent ++ out, held', hf'⟩
  | exchange received =>
    obtain ⟨-, hf', -⟩ := spiStcVect_flows hf received
    exact ⟨sent, held, hf'⟩

theorem avrStep_flows (c : Cpu) (e : AvrEvent) (h : ∃ sent held, Flows c.state.link sent held) :
    ∃ sent held, Flows (avrStep c e).state.link sent held := by
  cases e with
  | live e => exact liveStep_flows h e
  | int3 =>
    unfold avrStep outside
    split_ifs
    · obtain ⟨sent, held, hf⟩ := h
      exact ⟨_, held, (int3Vect_flows hf).1⟩
    · exact h

theorem init_flows : Flows init.link [] none := by
  have hl : init.link = linkInit := modeSet_link _ _
  rw [hl]
  exact linkInit_flows

/-- Whatever the AVR has been through, after a reset that finds no reply in the
slot and a filler in `SPDR` the daemon receives nothing but fillers and messages
made since, VERSION first. -/
theorem session_is_afresh (es : List AvrEvent)
    (idle : (run avrStep ⟨init, .idle⟩ es).pc = .idle)
    (clean : ResetClean (run avrStep ⟨init, .idle⟩ es).state) (ds : List LiveEvent) :
    ∃ ms made calls, Afresh (run avrStep ⟨init, .idle⟩ es).state
      (run sessionStep (restart (run avrStep ⟨init, .idle⟩ es)) ds) ms made calls := by
  have hstart : ∃ sent held, Flows (⟨init, .idle⟩ : Cpu).state.link sent held :=
    ⟨[], none, init_flows⟩
  obtain ⟨sent, held, hf⟩ :=
    run_keeps (I := fun c : Cpu => ∃ sent held, Flows c.state.link sent held) avrStep_flows es hstart
  have hrun := run_keeps
    (I := fun t : Session => ∃ ms made calls held bytes out,
      Restarted (run avrStep ⟨init, .idle⟩ es).state t ms made calls held
        (run avrStep ⟨init, .idle⟩ es).state.link.spdr bytes out)
    (fun t e h => by
      obtain ⟨ms, made, calls, held, bytes, out, h⟩ := h
      exact h.step e)
    ds ⟨_, _, _, _, _, _, restart_restarted idle hf clean⟩
  obtain ⟨ms, made, calls, held, bytes, out, h⟩ := hrun
  exact ⟨ms, made, calls, h.afresh⟩

/-- A clock message answered, the answer received, and the daemon started again. -/
def answeredLife : List AvrEvent :=
  (wire [⟨7, msgIdSyncClock, [12, 30]⟩]).map (fun b => AvrEvent.live (.exchange b)) ++
    List.replicate 6 (AvrEvent.live (.main .decodeStep)) ++ [AvrEvent.live (.main .postponeTry)] ++
    List.replicate 7 (AvrEvent.live (.exchange 0))

theorem session_afresh_of_answered :
    ∃ ms made calls, Afresh (run avrStep ⟨init, .idle⟩ answeredLife).state
      (run sessionStep (restart (run avrStep ⟨init, .idle⟩ answeredLife))
        (List.replicate 6 (.exchange 0))) ms made calls :=
  session_is_afresh answeredLife (by decide +kernel) (by decide +kernel) _

/-- The clock message is answered but the answer still in the slot when the
daemon starts again. -/
def heldLife : List AvrEvent :=
  (wire [⟨7, msgIdSyncClock, [12, 30]⟩]).map (fun b => AvrEvent.live (.exchange b)) ++
    List.replicate 6 (AvrEvent.live (.main .decodeStep))

/-- The daemon, which has sent nothing but zeros, gets the answer of the session
before. -/
theorem stale_reply_received :
    (run avrStep ⟨init, .idle⟩ heldLife).pc = .idle ∧
      (run avrStep ⟨init, .idle⟩ heldLife).state.link.postponedSize ≠ 0 ∧
      (parse [] (run sessionStep (restart (run avrStep ⟨init, .idle⟩ heldLife))
        (.main .postponeTry :: List.replicate 12 (.exchange 0))).received).2 =
        [versionMessage.body, [7, msgIdStatus, statusSuccess, msgIdSyncClock]] := by
  decide +kernel

end LedServer.Avr
