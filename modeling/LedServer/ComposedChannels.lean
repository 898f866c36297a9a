import LedServer.Composed
import LedServer.JoinedFlow

set_option autoImplicit false

/-!
# The two channels

Whatever the serials are, the bytes under way in either direction are those of
whole messages, in order, as long as no byte gets lost.
-/
namespace LedServer
open AvrRing Mcu FrameReader
open LedServer.Pi (Push)

/-! ### What `decode_try` invokes -/

namespace Avr

/-- Something may have been read since. -/
def HasRead (s s' : State) : Prop :=
  ∃ (readBuf : Buffer) (d : Decoder), readBuf.Valid ∧
    s' = { s with link := { s.link with readBuf := readBuf }, decoder := d }

theorem HasRead.refl {s : State} (hv : s.link.readBuf.Valid) : HasRead s s :=
  ⟨s.link.readBuf, s.decoder, hv, rfl⟩

theorem readPayload_hasRead {s : State} (hv : s.link.readBuf.Valid) :
    HasRead s (readPayload s).1 :=
  ⟨_, _, bufferArrayDrain_valid hv s.decoder.inBuf (s.decoder.msgSize - 2), rfl⟩

theorem invoked_cases {c : Cpu} {s : State} (h : invoked c = some s) :
    c.pc = .readPayload ∧ readPayload c.state = (s, true) ∧
      decodeStep c = ⟨decodeDone s, .idle⟩ := by
  obtain ⟨s₀, pc⟩ := c
  unfold invoked at h
  split at h
  · rename_i hpc
    dsimp only at hpc h
    subst hpc
    rcases hread : readPayload s₀ with ⟨s₁, _ | _⟩
    · rw [hread] at h
      cases h
    · rw [hread] at h
      cases h
      refine ⟨rfl, rfl, ?_⟩
      unfold decodeStep
      simp only [hread]
  · cases h

/-- An access that does not lead to `decode`. -/
theorem decodeStep_hasRead {c : Cpu} (hv : c.state.link.readBuf.Valid) (h : invoked c = none) :
    HasRead c.state (decodeStep c).state ∧
      (decodeStep c).state.decoder.calls = c.state.decoder.calls := by
  obtain ⟨s, pc⟩ := c
  by_cases hpc : pc = .readPayload
  · subst hpc
    have hread := readPayload_hasRead hv
    unfold invoked at h
    unfold decodeStep
    dsimp only at h hread ⊢
    rw [if_pos rfl] at h
    cases he : readPayload s with
    | mk s' ok =>
      cases ok with
      | true =>
        rw [he] at h
        cases h
      | false =>
        have hs' : (readPayload s).1 = s' := by rw [he]
        rw [hs'] at hread
        refine ⟨hread, ?_⟩
        dsimp only
        rw [← hs']
        rfl
  · obtain ⟨readBuf, d, hbuf, -, hcalls, he | ⟨hpay, -⟩⟩ := decodeStep_cases hv
    · rw [he]
      exact ⟨⟨readBuf, d, hbuf, rfl⟩, hcalls⟩
    · exact absurd hpay hpc

theorem arrive_decoded {d : Decoder} (hin : d.inBuf.length = inSize)
    (hfit : need d.msgSize ≤ inSize) : arrive d (decodedMessage d) = d := by
  have hlen : (d.inBuf.take (d.msgSize - 2).toNat).length = (d.msgSize - 2).toNat := by
    unfold need at hfit
    rw [List.length_take, hin]
    omega
  have hsize : BitVec.ofNat 8 ((d.msgSize - 2).toNat + 2) = d.msgSize := by bv_omega
  unfold arrive decodedMessage
  dsimp only
  rw [hlen, hsize, List.take_append_drop]

theorem Reads.invokes {ms : List Message} {coming : List Byte} {c : Cpu} (h : Reads ms coming c)
    (small : ∀ m ∈ ms, m.payload.length ≤ inSize) {s : State} (hs : invoked c = some s) :
    (decodeStep c).state.decoder.calls =
        c.state.decoder.calls ++ [decodedMessage s.decoder] ∧
      decodedMessage s.decoder ∈ ms ∧ decodeDone s = receive s (decodedMessage s.decoder) := by
  obtain ⟨hpc, hread, hstep⟩ := invoked_cases hs
  have hafter := h.step small
  have hsame : s.decoder.calls = c.state.decoder.calls ∧
      s.decoder.msgSize = c.state.decoder.msgSize := by
    have hfst : (readPayload c.state).1 = s := by rw [hread]
    rw [← hfst]
    exact ⟨rfl, rfl⟩
  have hcalls : (decodeStep c).state.decoder.calls =
      c.state.decoder.calls ++ [decodedMessage s.decoder] := by
    rw [hstep, ← hsame.1]
    exact congrArg Decoder.calls (decodeDone_incoming s).2
  have hmem : decodedMessage s.decoder ∈ ms := by
    have hprefix := hafter.calls_prefix
    rw [hcalls] at hprefix
    exact hprefix.subset (by simp)
  refine ⟨hcalls, hmem, ?_⟩
  have hin : s.decoder.inBuf.length = inSize := by
    have hlength := hafter.inBuf
    rw [hstep] at hlength
    dsimp only at hlength
    rw [(decodeDone_incoming s).2] at hlength
    exact hlength
  have hfit : need s.decoder.msgSize ≤ inSize := by
    have hplace : c.pc = nextPc c.state.decoder.decoded :=
      h.place.resolve_left (by rw [hpc]; exact DecodePc.noConfusion)
    obtain ⟨payload, -, -, hlen, hpayload⟩ :=
      h.payload_split (decoded_of_readPayload h.flags (hplace ▸ hpc))
    rw [hsame.2, ← hlen]
    exact small _ hpayload
  unfold receive
  rw [arrive_decoded hin hfit]

/-! ### INT3 in the middle of `decode_try` -/

/-- INT3 has come between two accesses, and nothing has arrived since. -/
structure Rewound (c : Cpu) : Prop where
  busy : c.pc ≠ .idle
  decoded : c.state.decoder.decoded = 0
  size : c.state.decoder.msgSize = 0
  empty : c.state.link.readBuf.contents = []

/-- The next access finds nothing. -/
theorem Rewound.step {c : Cpu} (h : Rewound c) :
    invoked c = none ∧ ∃ requested, decodeStep c =
      ⟨{ c.state with decoder := { c.state.decoder with requested := requested } }, .idle⟩ := by
  obtain ⟨s, pc⟩ := c
  obtain ⟨hbusy, -, hsize, hempty⟩ := h
  dsimp only at hbusy hsize hempty ⊢
  have hread := readSymbol_nil hempty
  unfold invoked decodeStep stepField
  cases pc with
  | idle => exact absurd rfl hbusy
  | readPayload =>
    have hshort : ¬ (s.decoder.msgSize - 2).toNat ≤ s.link.readBuf.contents.length := by
      rw [hempty, hsize]
      decide
    have hnone : readPayload s = ({ s with
        decoder := { s.decoder with
          requested := s.decoder.requested ++ [s.decoder.msgSize - 2] } }, false) := by
      unfold readPayload spiReadArray
      rw [bufferArrayDrain_short s.decoder.inBuf (s.decoder.msgSize - 2) hshort]
    simp only [hnone, ↓reduceIte]
    exact ⟨trivial, _, rfl⟩
  | _ =>
    simp only [hread]
    exact ⟨rfl, s.decoder.requested, rfl⟩

/-- `decode` will be invoked with `downs`, if what is in `read_buf` is followed by
`coming`. -/
structure Listens (c : Cpu) (coming : List Byte) (downs : List Message) : Prop where
  reads : Reads (c.state.decoder.calls ++ downs) coming c ∨
    Rewound c ∧ Reads (c.state.decoder.calls ++ downs) coming ⟨c.state, .idle⟩
  small : ∀ m ∈ c.state.decoder.calls ++ downs, m.payload.length ≤ inSize

section Listens

variable {c : Cpu} {coming : List Byte} {downs : List Message}

theorem Listens.valid (h : Listens c coming downs) : c.state.link.readBuf.Valid :=
  h.reads.elim (·.valid) (·.2.valid)

theorem Listens.stream (h : Listens c coming downs) :
    (readFrom (phaseOf c.state.decoder) (c.state.link.readBuf.contents ++ coming)).2 = downs := by
  have hstream := h.reads.elim (·.stream) (·.2.stream)
  exact List.append_cancel_left hstream

/-- A step that leaves the decoder and `read_buf` alone. -/
theorem Listens.same (h : Listens c coming downs) {c' : Cpu} (hpc : c'.pc = c.pc)
    (hbuf : c'.state.link.readBuf = c.state.link.readBuf)
    (hdec : c'.state.decoder = c.state.decoder) : Listens c' coming downs := by
  refine ⟨?_, by rw [hdec]; exact h.small⟩
  rw [hdec]
  rcases h.reads with h | ⟨⟨hbusy, hdecoded, hsize, hempty⟩, h⟩
  · exact .inl (h.same hpc hbuf hdec)
  · exact .inr ⟨⟨by rw [hpc]; exact hbusy, by rw [hdec]; exact hdecoded,
      by rw [hdec]; exact hsize, by rw [hbuf]; exact hempty⟩, h.same rfl hbuf hdec⟩

/-- Behind complete frames one more is put on the wire. -/
theorem Listens.extend (h : Listens c [] downs) {m : Message}
    (hm : m.payload.length ≤ inSize) : Listens c m.frame (downs ++ [m]) := by
  have hsize : m.payload.length < 254 := lt_of_le_of_lt hm (by decide)
  refine ⟨?_, fun k hk => ?_⟩
  · rw [← List.append_assoc]
    exact h.reads.imp (·.extend hsize) fun ⟨hr, h⟩ => ⟨hr, h.extend hsize⟩
  · rw [← List.append_assoc] at hk
    rcases List.mem_append.mp hk with hk | hk
    · exact h.small k hk
    · rw [List.mem_singleton.mp hk]
      exact hm

theorem Listens.arrive {b : Byte} (h : Listens c (b :: coming) downs)
    (hkept : KeepsByte c.state.link.readBuf)
    (hplace : c.pc = .idle ∨ c.pc = nextPc c.state.decoder.decoded) :
    Listens (exchangeStep c b) coming downs := by
  refine ⟨.inl ?_, h.small⟩
  rcases h.reads with hreads | ⟨hr, hreads⟩
  · exact hreads.arrive hkept
  · -- it is about to look for an eye catch
    have hnow : Reads (c.state.decoder.calls ++ downs) (b :: coming) c :=
      ⟨hreads.valid, hreads.inBuf, hreads.flags, hplace, fun hpc => absurd hpc hr.busy,
        hreads.seek, hreads.stream⟩
    exact hnow.arrive hkept

theorem Listens.read (h : Listens c coming downs) (hnone : invoked c = none) :
    Listens (decodeStep c) coming downs := by
  rcases h.reads with hreads | ⟨hr, hreads⟩
  · obtain ⟨-, hcalls⟩ := decodeStep_hasRead hreads.valid hnone
    refine ⟨.inl ?_, ?_⟩
    · rw [hcalls]
      exact hreads.step h.small
    · rw [hcalls]
      exact h.small
  · obtain ⟨-, requested, hstep⟩ := hr.step
    rw [hstep]
    exact ⟨.inl ⟨hreads.valid, hreads.inBuf, hreads.flags, .inl rfl, hreads.due, hreads.seek,
      hreads.stream⟩, h.small⟩

/-- `decode` is invoked with the next message. -/
theorem Listens.decodes (h : Listens c coming downs) {s : State} (hs : invoked c = some s) :
    HasRead c.state s ∧ decodeStep c = ⟨receive s (decodedMessage s.decoder), .idle⟩ ∧
      ∃ rest, downs = decodedMessage s.decoder :: rest ∧
        (decodedMessage s.decoder).payload.length ≤ inSize ∧
        Listens (decodeStep c) coming rest := by
  rcases h.reads with hreads | ⟨hr, -⟩
  · obtain ⟨hpc, hread, hstep⟩ := invoked_cases hs
    obtain ⟨hcalls, hmem, hreceive⟩ := hreads.invokes h.small hs
    have hafter := hreads.step h.small
    have hstream := hafter.stream
    rw [hcalls, List.append_assoc] at hstream
    have hdowns := List.append_cancel_left hstream
    have hall : c.state.decoder.calls ++ downs = (decodeStep c).state.decoder.calls ++
        (readFrom (phaseOf (decodeStep c).state.decoder)
          ((decodeStep c).state.link.readBuf.contents ++ coming)).2 := hafter.stream.symm
    refine ⟨?_, by rw [hstep, hreceive], _, hdowns.symm, h.small _ hmem, ?_⟩
    · have hfst : (readPayload c.state).1 = s := by rw [hread]
      rw [← hfst]
      exact readPayload_hasRead hreads.valid
    · have hsmall := h.small
      rw [hall] at hafter hsmall
      exact ⟨.inl hafter, hsmall⟩
  · rw [hr.step.1] at hs
    cases hs

/-- INT3, wherever `decode_try` is. -/
theorem Listens.restart (h : Listens c coming downs) {sent : List Message}
    {held : Option Message} (hf : Flows c.state.link sent held) :
    Listens { c with state := int3Vect c.state } [] [] := by
  have hin : c.state.decoder.inBuf.length = inSize := h.reads.elim (·.inBuf) (·.2.inBuf)
  obtain ⟨hf', -, hempty, -⟩ := int3Vect_flows hf
  have hreads : Reads (c.state.decoder.calls ++ []) [] ⟨int3Vect c.state, .idle⟩ := by
    refine ⟨hf'.readValid, hin, .inl rfl, .inl rfl, fun _ => rfl, ?_, ?_⟩
    · dsimp only
      rw [hempty]
      rfl
    · dsimp only
      rw [hempty]
      rfl
  refine ⟨?_, fun m hm => h.small m ?_⟩
  · by_cases hpc : c.pc = .idle
    · left
      rw [← hpc] at hreads
      exact hreads
    · exact .inr ⟨⟨hpc, rfl, rfl, hempty⟩, hreads⟩
  · rw [List.append_nil] at hm
    exact List.mem_append_left _ hm

end Listens

end Avr

/-! ### What the AVR has sent -/

/-- With `parseBuf` in the parser and `inn` brought back, the parser will find `msgs`
in what the AVR has sent. -/
def Upward (l : Avr.Link) (parseBuf inn : List Byte) (msgs : List Message) : Prop :=
  ∃ sent ups rest tail held, msgs = ups ++ rest ∧ Avr.Flows l (sent ++ rest) held ∧
    Avr.HoldsStatus held ∧ l.writeBuf.contents = tail ++ rest.flatMap Message.frame ∧
    parse parseBuf (inn ++ l.spdr :: tail) = ([], ups.map Message.body)

section Upward

variable {l : Avr.Link} {parseBuf inn : List Byte} {msgs : List Message}

theorem Upward.inFlight (h : Upward l parseBuf inn msgs) :
    (parse parseBuf (inn ++ l.spdr :: l.writeBuf.contents)).2 = msgs.map Message.body := by
  obtain ⟨sent, ups, rest, tail, held, rfl, hf, -, hcontents, hparsed⟩ := h
  have hsmall : ∀ m ∈ rest, m.payload.length < 254 := fun m hm =>
    lt_of_le_of_lt (hf.small m (List.mem_append_right _ hm)) (by decide)
  rw [hcontents, ← List.cons_append, ← List.append_assoc, parse_append, hparsed,
    parse_frames hsmall, List.map_append]

/-- Reading is no concern of it. -/
theorem Upward.hasRead {s s' : Avr.State} (h : Upward s.link parseBuf inn msgs)
    (hr : Avr.HasRead s s') : Upward s'.link parseBuf inn msgs := by
  obtain ⟨readBuf, d, hv, rfl⟩ := hr
  obtain ⟨sent, ups, rest, tail, held, hmsgs, hf, hs, hcontents, hparsed⟩ := h
  exact ⟨sent, ups, rest, tail, held, hmsgs, hf.read hv, hs, hcontents, hparsed⟩

theorem Upward.flows (h : Upward l parseBuf inn msgs) :
    ∃ sent held, Avr.Flows l sent held ∧ Avr.HoldsStatus held := by
  obtain ⟨sent, ups, rest, tail, held, -, hf, hs, -⟩ := h
  exact ⟨_, held, hf, hs⟩

/-- A byte goes up, and the next one is loaded. -/
theorem Upward.exchange (h : Upward l parseBuf inn msgs) (hkept : KeepsByte l.readBuf)
    (b : Byte) : Upward (Avr.spiStcVect l b) parseBuf (inn ++ [l.spdr]) msgs := by
  obtain ⟨sent, ups, rest, tail, held, rfl, hf, hs, hcontents, hparsed⟩ := h
  obtain ⟨b', hf', -⟩ := Avr.spiStcVect_flows hf b
  obtain ⟨loaded, rest, tail, rfl, hcontents, hparsed⟩ :=
    loaded_parsed hf hkept hcontents hparsed b
  exact ⟨sent ++ loaded, ups ++ loaded, rest, tail, held, (List.append_assoc _ _ _).symm,
    by rwa [List.append_assoc], hs, hcontents, hparsed⟩

/-- What the AVR tells is appended. -/
theorem Upward.tells {p : Message → Bool} {told : List Message} {s s' : Avr.State}
    (h : Upward s.link parseBuf inn msgs) (ht : Avr.Tells p s.link s'.link told)
    (hd : ∀ sent held, Avr.Flows s.link sent held → Avr.Does s s' sent held) :
    ∃ out, out.filter p = told ∧ Upward s'.link parseBuf inn (msgs ++ out) := by
  obtain ⟨sent, ups, rest, tail, held, rfl, hf, hs, hcontents, hparsed⟩ := h
  obtain ⟨out, held', hout, hf', hs'⟩ := ht _ _ hf hs
  obtain ⟨_, made, out', lost, hdoes, hemits, -⟩ := hd _ _ hf
  -- the messages are those of the frames
  have hsame : out' = out := by
    have hwritten := hdoes.written.symm.trans hf'.written
    have hall := List.map_injective_iff.mpr Message.frame_injective hwritten
    exact List.append_cancel_left hall
  subst hsame
  refine ⟨out', hout, sent, ups, rest ++ out', tail, held', List.append_assoc _ _ _,
    by rwa [← List.append_assoc], hs', ?_, by rw [hemits.spdr]; exact hparsed⟩
  rw [hemits.contents, hcontents, List.flatMap_append, List.append_assoc]

/-- What has been brought back is parsed. -/
theorem Upward.read (h : Upward l parseBuf inn msgs) :
    ∃ got left, msgs = got ++ left ∧ (parse parseBuf inn).2 = got.map Message.body ∧
      Upward l (parse parseBuf inn).1 [] left := by
  obtain ⟨sent, ups, rest, tail, held, rfl, hf, hs, hcontents, hparsed⟩ := h
  obtain ⟨got, left, rfl, hgot, hleft⟩ := parse_split hparsed
  exact ⟨got, left ++ rest, List.append_assoc _ _ _, hgot,
    sent, left, rest, tail, held, rfl, hf, hs, hcontents, hleft⟩

/-- INT3 leaves nothing but VERSION, and whatever is in `SPDR`. -/
theorem Upward.restart {s : Avr.State} (h : Upward s.link parseBuf inn msgs)
    (hspdr : s.link.spdr ≠ eyeCatch) :
    Upward (Avr.int3Vect s).link [] [] [Avr.versionMessage] := by
  obtain ⟨sent, ups, rest, tail, held, -, hf, hs, -⟩ := h
  obtain ⟨hf', hwrite, -⟩ := Avr.int3Vect_flows hf
  refine ⟨sent ++ rest, [], [Avr.versionMessage], [], held, rfl, hf', hs, ?_, ?_⟩
  · rw [hwrite]
    simp
  · rw [List.nil_append, parse_single, Avr.int3Vect_spdr, parseStep_skipped hspdr]
    rfl

end Upward

end LedServer
