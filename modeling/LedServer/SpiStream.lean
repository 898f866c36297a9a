import LedServer.Machine
import LedServer.AvrLinkFlow
import LedServer.McuMessage

set_option autoImplicit false

/-!
# From `encode_msg` to `mcu_parse_t`

The bytes `SPI_STC_vect` puts into `SPDR` are read by the parser on the other
machine, fillers included.
-/
namespace LedServer.Avr
open AvrRing Machine Mcu

/-- `encode_msg_0` to `encode_msg_8`, chosen by the number of payload bytes. -/
def encodeMessage (l : Link) (m : Message) : Link :=
  match m.payload with
  | [] => encodeMsg0 l m.id m.serial
  | [a] => encodeMsg1 l m.id m.serial a
  | [a, b] => encodeMsg2 l m.id m.serial a b
  | [a, b, c] => encodeMsg3 l m.id m.serial a b c
  | [a, b, c, d] => encodeMsg4 l m.id m.serial a b c d
  | [a, b, c, d, e] => encodeMsg5 l m.id m.serial a b c d e
  | [a, b, c, d, e, f] => encodeMsg6 l m.id m.serial a b c d e f
  | [a, b, c, d, e, f, g, h] => encodeMsg8 l m.id m.serial a b c d e f g h
  | _ => l

/-- What can happen to the link: a message, a main-loop look at the postponed
slot, the main loop reading, an exchange of bytes. -/
inductive LinkEvent where
  | encode (m : Message)
  | postponeTry (shiftSpace : Byte)
  | readSymbol
  | readArray (arr : List Byte) (arrSize : Byte)
  | exchange (received : Byte)

def linkStep (l : Link) : LinkEvent → Link
  | .encode m => encodeMessage l m
  | .postponeTry shiftSpace => postponeTry l shiftSpace
  | .readSymbol => (spiReadSymbol l).1
  | .readArray arr arrSize => (spiReadArray l arr arrSize).1
  | .exchange received => spiStcVect l received

/-- An exchange that finds `read_buf` full comes between two frames, or where
what is left of the frame being sent is nothing but overflow fillers. -/
def ExchangeSound (l : Link) : LinkEvent → Prop
  | .exchange _ => ¬ l.readBuf.count < 255 →
      ∃ k rest, rest <:+ l.written ∧
        l.writeBuf.contents = List.replicate k spiReadOverflow ++ rest.flatten
  | _ => True

theorem encodeMessage_cases (l : Link) (m : Message) :
    encodeMessage l m = l ∨
      m.payload.length ≤ 8 ∧ encodeMessage l m = postponeMessage l m.frame m.serial := by
  obtain ⟨serial, id, payload⟩ := m
  unfold encodeMessage
  dsimp only
  split
  case h_9 => exact .inl rfl
  all_goals exact .inr ⟨by simp, rfl⟩

/-! ### The stream is the frames, with fillers where they do no harm -/

/-- `tail` is left of the frame being sent, the last of `done`; `rest` follows. -/
structure Streams (l : Link) (done rest : List Message) (tail : List Byte) : Prop where
  flows : ∃ held, Flows l (done ++ rest) held
  contents : l.writeBuf.contents = tail ++ rest.flatMap Message.frame
  begun : tail = [] ∨ ∃ m ∈ done.getLast?, tail.length < m.frame.length
  parsed : parse [] (l.loaded ++ tail) = ([], done.map Message.body)

theorem linkInit_streams : Streams linkInit [] [] [] where
  flows := ⟨none, linkInit_flows⟩
  contents := ringInit_contents 255
  begun := .inl rfl
  parsed := rfl

/-- The main loop only appends frames. -/
theorem Streams.main {l l' : Link} {done rest out : List Message} {tail : List Byte}
    (h : Streams l done rest tail) (hs : Sends l l' out)
    (hf : ∃ held, Flows l' (done ++ rest ++ out) held) : Streams l' done (rest ++ out) tail where
  flows := by rw [← List.append_assoc]; exact hf
  contents := by rw [hs.contents, h.contents, List.flatMap_append, List.append_assoc]
  begun := h.begun
  parsed := by rw [hs.loaded]; exact h.parsed

theorem encode_streams {l : Link} {done rest : List Message} {tail : List Byte}
    (h : Streams l done rest tail) (m : Message) :
    ∃ rest, Streams (encodeMessage l m) done rest tail := by
  rcases encodeMessage_cases l m with hno | ⟨hm, hyes⟩
  · rw [hno]
    exact ⟨rest, h⟩
  · obtain ⟨held, hf⟩ := h.flows
    rw [hyes]
    by_cases hz : m.serial = serialIdToIgnore
    · obtain ⟨out, -, hf', hs, -, -⟩ := postpone_ignored hf hz hm
      exact ⟨rest ++ out, h.main hs ⟨held, hf'⟩⟩
    · refine ⟨rest ++ [], ?_⟩
      cases held with
      | none =>
        obtain ⟨hf', hs, -, -⟩ := postpone_reply hf hz hm
        exact h.main hs ⟨some m, by simpa using hf'⟩
      | some k =>
        obtain ⟨hf', hs, -⟩ := postpone_taken hf hz
        exact h.main hs ⟨some k, by simpa using hf'⟩

theorem postponeTry_streams {l : Link} {done rest : List Message} {tail : List Byte}
    (h : Streams l done rest tail) (shiftSpace : Byte) :
    ∃ rest, Streams (postponeTry l shiftSpace) done rest tail := by
  obtain ⟨held, hf⟩ := h.flows
  rcases postponeTry_flows hf shiftSpace with hno | ⟨m, -, -, hf', hs, -, -⟩
  · rw [hno]
    exact ⟨rest, h⟩
  · exact ⟨rest ++ [m], h.main hs ⟨none, hf'⟩⟩

/-- Reading only shortens `read_buf`. -/
theorem read_streams {l : Link} {done rest : List Message} {tail : List Byte}
    (h : Streams l done rest tail) {readBuf : Buffer} (hv : readBuf.Valid) :
    Streams { l with readBuf := readBuf } done rest tail := by
  obtain ⟨held, hf⟩ := h.flows
  refine ⟨⟨held, ⟨hv, hf.writeValid, hf.room, hf.written, hf.small, ?_⟩⟩, h.contents, h.begun,
    h.parsed⟩
  have hslot := hf.slot
  cases held <;> exact hslot

/-- A byte of the frame being sent goes out. -/
theorem Streams.sendTail {l l' : Link} {done rest : List Message} {b : Byte} {tail : List Byte}
    (h : Streams l done rest (b :: tail)) (hf : ∃ held, Flows l' (done ++ rest) held)
    (hload : l'.loaded = l.loaded ++ [b])
    (hc : l'.writeBuf.contents = tail ++ rest.flatMap Message.frame) :
    Streams l' done rest tail where
  flows := hf
  contents := hc
  begun := by
    rcases h.begun with hnil | ⟨m, hm, hlen⟩
    · exact absurd hnil (List.cons_ne_nil _ _)
    · exact .inr ⟨m, hm, lt_trans (Nat.lt_succ_self _) hlen⟩
  parsed := by
    rw [hload, List.append_assoc, List.singleton_append]
    exact h.parsed

/-- The first byte of the next frame goes out. -/
theorem Streams.sendFirst {l l' : Link} {done rest : List Message} {m : Message}
    (h : Streams l done (m :: rest) []) (hm : m.payload.length ≤ 8)
    (hf : ∃ held, Flows l' (done ++ m :: rest) held)
    (hload : l'.loaded = l.loaded ++ [eyeCatch])
    (hc : l'.writeBuf.contents = m.frame.tail ++ rest.flatMap Message.frame) :
    Streams l' (done ++ [m]) rest m.frame.tail where
  flows := by rw [List.append_assoc]; exact hf
  contents := hc
  begun := by
    refine .inr ⟨m, by simp, ?_⟩
    rw [List.length_tail, Message.frame_length]
    omega
  parsed := by
    have hframe : [eyeCatch] ++ m.frame.tail = m.frame := rfl
    have hold := h.parsed
    rw [List.append_nil] at hold
    rw [hload, List.append_assoc, hframe, parse_append, hold, parse_frame m (by omega),
      List.map_append]
    rfl

/-- A filler between frames is skipped. -/
theorem Streams.fill {l l' : Link} {done rest : List Message} {b : Byte}
    {tail : List Byte} (h : Streams l done rest tail) (hb : IsFiller b)
    (htail : ∀ c ∈ tail, c = b) (hf : ∃ held, Flows l' (done ++ rest) held)
    (hload : l'.loaded = l.loaded ++ [b])
    (hc : l'.writeBuf.contents = l.writeBuf.contents) : Streams l' done rest tail where
  flows := hf
  contents := by rw [hc, h.contents]
  begun := h.begun
  parsed := by
    -- the filler ends the frame a byte early and its own last byte is skipped
    have hmove : [b] ++ tail = tail ++ [b] := by
      rw [List.eq_replicate_iff.mpr ⟨rfl, htail⟩]
      exact List.replicate_succ'.symm ▸ rfl
    rw [hload, List.append_assoc, hmove, ← List.append_assoc, parse_append, h.parsed,
      parse_single, parseStep_filler hb, List.append_nil]

/-- The frames in `write_buf` determine what is left of the one being sent. -/
theorem Streams.tail_overflow {l : Link} {done rest : List Message} {tail : List Byte}
    (h : Streams l done rest tail) {k : ℕ} {rest' : List (List Byte)} (hr : rest' <:+ l.written)
    (hc : l.writeBuf.contents = List.replicate k spiReadOverflow ++ rest'.flatten) :
    ∀ c ∈ tail, c = spiReadOverflow := by
  obtain ⟨held, hf⟩ := h.flows
  have hrest : rest.map Message.frame <:+ l.written := by
    rw [hf.written, List.map_append]
    exact List.suffix_append _ _
  have heq : tail ++ (rest.map Message.frame).flatten =
      List.replicate k spiReadOverflow ++ rest'.flatten := by
    rw [← hc, h.contents, List.flatMap_def]
  rcases List.suffix_or_suffix_of_suffix hrest hr with ⟨more, hmore⟩ | ⟨more, hmore⟩
  · -- `rest'` is longer: it would contain the whole frame being sent
    rw [← hmore, List.flatten_append, ← List.append_assoc] at heq
    have htail := List.append_cancel_right heq
    cases hm : more.getLast? with
    | none =>
      rw [List.getLast?_eq_none_iff] at hm
      rw [htail, hm]
      intro c hcm
      rw [List.flatten_nil, List.append_nil] at hcm
      exact (List.mem_replicate.mp hcm).2
    | some last =>
      exfalso
      obtain ⟨front, hfront⟩ := List.getLast?_eq_some_iff.mp hm
      have hdone : ∃ pre, done.map Message.frame = pre ++ more := by
        obtain ⟨pre, hpre⟩ := hr
        rw [hf.written, ← hmore, List.map_append, ← List.append_assoc] at hpre
        exact ⟨pre, (List.append_cancel_right hpre).symm⟩
      obtain ⟨pre, hpre⟩ := hdone
      rw [hfront, ← List.append_assoc] at hpre
      have hlast : (done.map Message.frame).getLast? = some last := by
        rw [hpre, List.getLast?_append]
        rfl
      rw [List.getLast?_map, Option.map_eq_some_iff] at hlast
      obtain ⟨m, hm', rfl⟩ := hlast
      have hlen : m.frame.length ≤ tail.length := by
        rw [htail, hfront, List.flatten_append, List.length_append, List.length_append,
          List.flatten_singleton]
        omega
      rcases h.begun with hnil | ⟨m', hm'', hlt⟩
      · rw [hnil, Message.frame_length] at hlen
        exact absurd hlen (by simp)
      · rw [hm'] at hm''
        rw [← Option.mem_some_iff.mp hm''] at hlt
        omega
  · rw [← hmore, List.flatten_append, ← List.append_assoc] at heq
    have htail := List.append_cancel_right heq
    intro c hcm
    have : c ∈ List.replicate k spiReadOverflow := by
      rw [← htail]
      exact List.mem_append_left _ hcm
    exact (List.mem_replicate.mp this).2

theorem exchange_streams {l : Link} {done rest : List Message} {tail : List Byte}
    (h : Streams l done rest tail) (received : Byte) (hsound : ExchangeSound l (.exchange received)) :
    ∃ done rest tail, Streams (spiStcVect l received) done rest tail := by
  obtain ⟨held, hf⟩ := h.flows
  obtain ⟨b, hf', -, hload, -, -, hcases⟩ := spiStcVect_flows hf received
  rcases hcases with ⟨hfull, rfl, hc⟩ | ⟨-, hc⟩ | ⟨-, rfl, hnil, hc⟩
  · obtain ⟨k, rest', hr, hk⟩ := hsound hfull
    exact ⟨done, rest, tail,
      h.fill (.inr rfl) (h.tail_overflow hr hk) ⟨held, hf'⟩ hload hc⟩
  · rw [h.contents] at hc
    cases tail with
    | cons c tail =>
      obtain ⟨rfl, hrest⟩ := List.cons.inj hc
      exact ⟨done, rest, tail, h.sendTail ⟨held, hf'⟩ hload hrest.symm⟩
    | nil =>
      cases rest with
      | nil => exact absurd hc (by simp)
      | cons m rest =>
        obtain ⟨rfl, hrest⟩ := List.cons.inj hc
        exact ⟨done ++ [m], rest, m.frame.tail,
          h.sendFirst (hf.small m (by simp)) ⟨held, hf'⟩ hload hrest.symm⟩
  · have hempty : tail = [] := by
      rw [h.contents] at hnil
      exact (List.append_eq_nil_iff.mp hnil).1
    exact ⟨done, rest, tail, h.fill (.inl rfl) (by simp [hempty]) ⟨held, hf'⟩ hload
      (by rw [hc, hnil])⟩

theorem linkStep_streams (l : Link) (e : LinkEvent)
    (h : ∃ done rest tail, Streams l done rest tail) (hsound : ExchangeSound l e) :
    ∃ done rest tail, Streams (linkStep l e) done rest tail := by
  obtain ⟨done, rest, tail, h⟩ := h
  obtain ⟨held, hf⟩ := h.flows
  cases e with
  | encode m =>
    obtain ⟨rest, h'⟩ := encode_streams h m
    exact ⟨done, rest, tail, h'⟩
  | postponeTry shiftSpace =>
    obtain ⟨rest, h'⟩ := postponeTry_streams h shiftSpace
    exact ⟨done, rest, tail, h'⟩
  | readSymbol => exact ⟨done, rest, tail, read_streams h (bufferByteDrain_valid hf.readValid)⟩
  | readArray arr n =>
    exact ⟨done, rest, tail, read_streams h (bufferArrayDrain_valid hf.readValid arr n)⟩
  | exchange received => exact exchange_streams h received hsound

/-- In a run whose overflows all come where they do no harm, the parser hands
out the accepted messages in order and nothing else, all of them once `write_buf`
is drained. -/
theorem parsed_stream_of_sound (es : List LinkEvent)
    (h : Along linkStep ExchangeSound linkInit es) :
    ∃ ms : List Message,
      (run linkStep linkInit es).written = ms.map Message.frame ∧
      (parse [] (run linkStep linkInit es).loaded).2 <+: ms.map Message.body ∧
      ((run linkStep linkInit es).writeBuf.contents = [] →
        parse [] (run linkStep linkInit es).loaded = ([], ms.map Message.body)) := by
  obtain ⟨done, rest, tail, hs⟩ :=
    run_invariant linkStep_streams ⟨[], [], [], linkInit_streams⟩ h
  obtain ⟨held, hf⟩ := hs.flows
  refine ⟨done ++ rest, hf.written, ?_, fun hdrained => ?_⟩
  · have hprefix := parse_prefix [] (run linkStep linkInit es).loaded tail
    rw [hs.parsed] at hprefix
    rw [List.map_append]
    exact hprefix.trans (List.prefix_append _ _)
  · rw [hs.contents, List.append_eq_nil_iff] at hdrained
    obtain ⟨htail, hrest⟩ := hdrained
    have hnone : rest = [] := by
      cases rest with
      | nil => rfl
      | cons m rest => simp [Message.frame] at hrest
    have hparsed := hs.parsed
    rw [htail, List.append_nil] at hparsed
    rw [hparsed, hnone, List.append_nil]

/-- `write_buf` is empty whenever an exchange finds `read_buf` full. -/
def BetweenFrames (l : Link) : LinkEvent → Prop
  | .exchange _ => ¬ l.readBuf.count < 255 → l.writeBuf.contents = []
  | _ => True

instance (l : Link) : (e : LinkEvent) → Decidable (BetweenFrames l e)
  | .exchange _ => inferInstanceAs (Decidable (_ → _))
  | .encode _ => .isTrue trivial
  | .postponeTry _ => .isTrue trivial
  | .readSymbol => .isTrue trivial
  | .readArray _ _ => .isTrue trivial

theorem BetweenFrames.sound {l : Link} {e : LinkEvent} (h : BetweenFrames l e) :
    ExchangeSound l e := by
  cases e with
  | exchange received => exact fun hfull => ⟨0, [], List.nil_suffix, h hfull⟩
  | _ => trivial

def bareResume : Message := ⟨0, msgIdResume, []⟩

def volumeQuery : Message := ⟨0, msgIdQueryNumber, [parameterVolume]⟩

/-- The fillers between two frames go on until `read_buf` is full and overflows. -/
@[irreducible] def overflowBetween : List LinkEvent :=
  .encode bareResume :: List.replicate 257 (LinkEvent.exchange 0) ++
    List.replicate 8 LinkEvent.readSymbol ++
    .encode volumeQuery :: List.replicate 6 (LinkEvent.exchange 0)

theorem parsed_stream_of_two :
    spiReadOverflow ∈ (run linkStep linkInit overflowBetween).loaded ∧
      (run linkStep linkInit overflowBetween).written =
        [bareResume.frame, volumeQuery.frame] ∧
      parse [] (run linkStep linkInit overflowBetween).loaded =
        ([], [bareResume.body, volumeQuery.body]) := by
  have hbetween : Along linkStep BetweenFrames linkInit overflowBetween := by decide +kernel
  obtain ⟨ms, hwritten, -, hparsed⟩ :=
    parsed_stream_of_sound overflowBetween (hbetween.imp fun _ _ => BetweenFrames.sound)
  have htwo : (run linkStep linkInit overflowBetween).written =
      [bareResume, volumeQuery].map Message.frame := by decide +kernel
  obtain rfl : ms = [bareResume, volumeQuery] :=
    List.map_injective_iff.mpr Message.frame_injective (hwritten.symm.trans htwo)
  exact ⟨by decide +kernel, hwritten, hparsed (by decide +kernel)⟩

/-- `read_buf` is filled with the frame half sent: the exchange after the eye
catch brings the overflow filler, which the parser takes for the size. -/
def overflowRun : List LinkEvent :=
  List.replicate 254 (LinkEvent.exchange 0) ++
    [LinkEvent.encode volumeQuery, .exchange 0, .exchange 0] ++
    List.replicate 11 LinkEvent.readSymbol ++ List.replicate 4 (LinkEvent.exchange 0)

theorem overflow_loses_message :
    (run linkStep linkInit overflowRun).written = [volumeQuery.frame] ∧
      bufferSize (run linkStep linkInit overflowRun).writeBuf = 0 ∧
      (parse [] (run linkStep linkInit overflowRun).loaded).2 = [] := by
  decide +kernel

end LedServer.Avr
