import LedServer.Joined

set_option autoImplicit false

/-!
# One numbered message at a time

Wherever the last numbered message or its answer is, on the way down, in the
slot, in `write_buf` or on the way up, its serial is the one `mcu_block_t` waits
for, and there is no other.
-/
namespace LedServer
open Machine Mcu FrameReader
open LedServer.Pi (Push)
open Avr (Cpu MainEvent Reads Flows Answered IsReply phaseOf)

/-! ### The byte streams -/

/-- What the interrupt puts into `SPDR` belongs to the frame being sent, begins
the next one or is a filler. -/
theorem loaded_parsed {l : Avr.Link} {sent ups rest : List Message} {held : Option Message}
    {parseBuf inn tail : List Byte} (hf : Flows l (sent ++ rest) held)
    (hkept : AvrRing.KeepsByte l.readBuf)
    (hcontents : l.writeBuf.contents = tail ++ rest.flatMap Message.frame)
    (hparsed : parse parseBuf (inn ++ l.spdr :: tail) = ([], ups.map Message.body)) (b : Byte) :
    ∃ loaded rest' tail', rest = loaded ++ rest' ∧
      (Avr.spiStcVect l b).writeBuf.contents = tail' ++ rest'.flatMap Message.frame ∧
      parse parseBuf ((inn ++ [l.spdr]) ++ (Avr.spiStcVect l b).spdr :: tail') =
        ([], (ups ++ loaded).map Message.body) := by
  obtain ⟨b', -, hspdr, -, -, -, hcases⟩ := Avr.spiStcVect_flows hf b
  have hbehind : ∀ bytes, (inn ++ [l.spdr]) ++ bytes = inn ++ l.spdr :: bytes := fun bytes => by
    rw [List.append_assoc, List.singleton_append]
  rw [hspdr]
  rcases hcases with ⟨hfull, -⟩ | ⟨-, hc⟩ | ⟨-, hunder, hnil, hc⟩
  · exact absurd hkept.1 hfull
  · rw [hcontents] at hc
    cases tail with
    | cons c tail =>
      obtain ⟨rfl, hrest⟩ := List.cons.inj hc
      exact ⟨[], rest, tail, rfl, hrest.symm, by rw [hbehind, List.append_nil]; exact hparsed⟩
    | nil =>
      cases rest with
      | nil => exact absurd hc (by simp)
      | cons m rest =>
        obtain ⟨rfl, hrest⟩ := List.cons.inj hc
        have hm : m.payload.length ≤ 8 := hf.small m (by simp)
        refine ⟨[m], rest, m.frame.tail, rfl, hrest.symm, ?_⟩
        -- The frame follows the byte that was in `SPDR`.
        rw [show eyeCatch :: m.frame.tail = m.frame from rfl, parse_append, hparsed,
          parse_frame m (by omega), List.map_append]
        rfl
  · -- Nothing is left in `write_buf`.
    rw [hcontents, List.append_eq_nil_iff] at hnil
    obtain ⟨rfl, hrest⟩ := hnil
    refine ⟨[], rest, [], rfl, by rw [hc, hrest]; rfl, ?_⟩
    rw [parse_append, hparsed, parse_single, parseStep_filler (.inl hunder)]
    simp

/-- Behind complete frames one more is put on the wire. -/
theorem Avr.Reads.extend {ms : List Message} {c : Cpu} (h : Reads ms [] c) {m : Message}
    (hm : m.payload.length < 254) : Reads (ms ++ [m]) m.frame c := by
  have hseek := h.seek
  have hstream := h.stream
  rw [List.append_nil] at hseek hstream
  have hall : readFrom (phaseOf c.state.decoder)
      (c.state.link.readBuf.contents ++ m.frame) =
      (.seek, (readFrom (phaseOf c.state.decoder) c.state.link.readBuf.contents).2 ++ [m]) := by
    rw [readFrom_append, hseek, read_frame m hm]
  refine ⟨h.valid, h.inBuf, h.flags, h.place, h.due, by rw [hall], ?_⟩
  rw [hall, ← hstream, List.append_assoc]

/-- A step that leaves the decoder and `read_buf` alone. -/
theorem Avr.Reads.same {ms : List Message} {coming : List Byte} {c c' : Cpu} (h : Reads ms coming c)
    (hpc : c'.pc = c.pc) (hbuf : c'.state.link.readBuf = c.state.link.readBuf)
    (hdec : c'.state.decoder = c.state.decoder) : Reads ms coming c' := by
  refine ⟨by rw [hbuf]; exact h.valid, by rw [hdec]; exact h.inBuf, by rw [hdec]; exact h.flags,
    by rw [hpc, hdec]; exact h.place, by rw [hpc, hdec]; exact h.due,
    by rw [hbuf, hdec]; exact h.seek, by rw [hbuf, hdec]; exact h.stream⟩

theorem Avr.Reads.main {ms : List Message} {coming : List Byte} {c : Cpu} (h : Reads ms coming c)
    (small : ∀ m ∈ ms, m.payload.length ≤ Avr.inSize) (e : MainEvent) :
    Reads ms coming (Avr.mainStep c e) := by
  rcases Avr.mainStep_incoming c e with rfl | ⟨hpc, hbuf, hdec⟩
  · exact h.step small
  · exact h.same hpc hbuf hdec

/-! ### The invariant -/

/-- The numbered messages of a list. -/
def numberedOf (ms : List Message) : List Message := ms.filter numbered

@[simp] theorem numberedOf_append (ms ks : List Message) :
    numberedOf (ms ++ ks) = numberedOf ms ++ numberedOf ks := List.filter_append ..

@[simp] theorem numberedOf_nil : numberedOf [] = [] := rfl

/-- What comes from the queue. -/
def pushedOf (ms : List Message) : List Message := ms.filter (·.id ≠ msgIdIdle)

@[simp] theorem pushedOf_append (ms ks : List Message) :
    pushedOf (ms ++ ks) = pushedOf ms ++ pushedOf ks := List.filter_append ..

@[simp] theorem pushedOf_nil : pushedOf [] = [] := rfl

theorem numberedOf_ignored {ms : List Message} (h : ∀ m ∈ ms, m.serial = serialIdToIgnore) :
    numberedOf ms = [] := by
  refine List.filter_eq_nil_iff.mpr fun m hm => ?_
  simp [numbered, h m hm]

theorem numberedOf_cons {m : Message} (h : m.serial ≠ serialIdToIgnore) (ms : List Message) :
    numberedOf (m :: ms) = m :: numberedOf ms := List.filter_cons_of_pos (by simp [numbered, h])

theorem numberedOf_cons_ignored {m : Message} (h : m.serial = serialIdToIgnore)
    (ms : List Message) : numberedOf (m :: ms) = numberedOf ms :=
  List.filter_cons_of_neg (by simp [numbered, h])

/-- The answers on their way up: read, written or in the slot. -/
def way (ups rest : List Message) (held : Option Message) : List Message :=
  numberedOf (ups ++ rest ++ held.toList)

/-- What is on its way. `decoded` and `made` are the messages decoded and made by
the AVR since `s`, `ahead` is still to be decoded; `got` has been handed over, `ups` is
taken from `write_buf` in part at least and not parsed, `tail` is left of the last of them, `rest`
follows, and `held` is in the slot. -/
structure Carries (s : Avr.State) (t : Joined) (decoded ahead made got ups rest : List Message)
    (tail : List Byte) (held : Option Message) : Prop where
  calls : t.avr.state.decoder.calls = s.decoder.calls ++ decoded
  reads : Reads (s.decoder.calls ++ (decoded ++ ahead)) t.pi.out t.avr
  small : ∀ m ∈ s.decoder.calls ++ (decoded ++ ahead), m.payload.length ≤ Avr.inSize
  answered : ∀ m ∈ ahead, m.serial ≠ serialIdToIgnore → Answered m
  flows : ∃ sent, Flows t.avr.state.link (sent ++ rest) held
  contents : t.avr.state.link.writeBuf.contents = tail ++ rest.flatMap Message.frame
  parsed : parse t.pi.parseBuf (t.pi.inn ++ t.avr.state.link.spdr :: tail) =
    ([], ups.map Message.body)
  created : t.avr.state.link.created = s.link.created ++ made.map Message.frame
  discarded : t.avr.state.link.discarded = s.link.discarded
  replies : List.Forall₂ IsReply (numberedOf decoded) (numberedOf made)
  pending : (numberedOf ahead).map Message.serial ++ (way ups rest held).map Message.serial =
    awaited t.pi.pendingId
  handed : t.pi.fromQueue = got.map Message.body
  answers : numberedOf made = numberedOf got ++ way ups rest held
  thrown : t.pi.thrown = false
  mismatched : t.pi.mismatched = false
  queue : ∀ msg ∈ t.pi.toQueue, ∃ p : Push, msg = p.message.body
  still : (∀ back, t.pi.pc ≠ .transfer back) → t.pi.out = [] ∧ t.pi.inn = []

section Steps

variable {s : Avr.State} {t : Joined} {decoded ahead made got ups rest : List Message}
variable {tail : List Byte} {held : Option Message}

/-! ### The exchange of two bytes -/

theorem Carries.exchange (h : Carries s t decoded ahead made got ups rest tail held)
    (hbelow : t.avr.state.link.readBuf.contents.length + 1 < 255) {b : Byte} {out : List Byte}
    (hout : t.pi.out = b :: out) :
    ∃ ups rest tail, Carries s
      ⟨Avr.exchangeStep t.avr b, transferByte t.pi t.avr.state.link.spdr⟩
      decoded ahead made got ups rest tail held := by
  obtain ⟨sent, hflows⟩ := h.flows
  obtain ⟨b', hflows', -, -, hcreated, hdiscarded, -⟩ := Avr.spiStcVect_flows hflows b
  have hkept := AvrRing.keepsByte_of_below hbelow
  obtain ⟨loaded, rest, tail, rfl, hcontents, hparsed⟩ :=
    loaded_parsed hflows hkept h.contents h.parsed b
  have hreads : Reads (s.decoder.calls ++ (decoded ++ ahead)) (transferByte t.pi
      t.avr.state.link.spdr).out (Avr.exchangeStep t.avr b) := by
    have hread := h.reads
    rw [hout] at hread
    have harrive := hread.arrive hkept
    have hrest : (transferByte t.pi t.avr.state.link.spdr).out = out := by
      simp [transferByte, hout]
    rw [hrest]
    exact harrive
  have hway : way (ups ++ loaded) rest held = way ups (loaded ++ rest) held := by
    unfold way
    rw [List.append_assoc ups]
  refine ⟨ups ++ loaded, rest, tail, { h with
    reads := hreads
    flows := ⟨sent ++ loaded, by rw [List.append_assoc]; exact hflows'⟩
    contents := hcontents
    parsed := hparsed
    created := hcreated.trans h.created
    discarded := hdiscarded.trans h.discarded
    pending := by rw [hway]; exact h.pending
    answers := by rw [hway]; exact h.answers
    still := ?_ }⟩
  intro hpc
  have hnone := (h.still hpc).1
  rw [hout] at hnone
  cases hnone

/-! ### The main loop -/

/-- A step that makes, writes and decodes nothing numbered. -/
theorem Carries.quiet (h : Carries s t decoded ahead made got ups rest tail held) {c : Cpu}
    {sent made' out : List Message} {held' : Option Message}
    (hreads : Reads (s.decoder.calls ++ (decoded ++ ahead)) t.pi.out c)
    (hcalls : c.state.decoder.calls = t.avr.state.decoder.calls)
    (hflows : Flows c.state.link (sent ++ rest ++ out) held')
    (hemits : Avr.Emits t.avr.state.link c.state.link made' out [])
    (hmade : numberedOf made' = [])
    (hway : way ups (rest ++ out) held' = way ups rest held) :
    Carries s ⟨c, t.pi⟩ decoded ahead (made ++ made') got ups (rest ++ out) tail held' :=
  { h with
    calls := hcalls.trans h.calls
    reads := hreads
    flows := ⟨sent, by simpa using hflows⟩
    contents := by
      rw [hemits.contents, h.contents, List.append_assoc, List.flatMap_append]
    parsed := by
      dsimp only
      rw [hemits.spdr]
      exact h.parsed
    created := by
      dsimp only
      rw [hemits.created, h.created, List.append_assoc, ← List.map_append]
    discarded := by
      dsimp only
      rw [hemits.discarded, h.discarded, List.map_nil, List.append_nil]
    replies := by
      rw [numberedOf_append, hmade, List.append_nil]
      exact h.replies
    pending := by rw [hway]; exact h.pending
    answers := by
      rw [numberedOf_append, hmade, List.append_nil, hway]
      exact h.answers }

/-- With a numbered message still to be decoded the slot is free. -/
theorem Carries.free {call : Message}
    (h : Carries s t decoded (call :: ahead) made got ups rest tail held)
    (hn : call.serial ≠ serialIdToIgnore) :
    numberedOf ahead = [] ∧ way ups rest held = [] ∧
      awaited t.pi.pendingId = [call.serial] := by
  have hpending : call.serial :: ((numberedOf ahead).map Message.serial ++
      (way ups rest held).map Message.serial) = awaited t.pi.pendingId := by
    rw [← h.pending, numberedOf_cons hn]
    rfl
  obtain ⟨-, hnone⟩ := pending_of_awaited hpending
  obtain ⟨hahead, hway⟩ := List.append_eq_nil_iff.mp hnone
  exact ⟨List.map_eq_nil_iff.mp hahead, List.map_eq_nil_iff.mp hway, by rw [← hpending, hnone]⟩

/-- What is in the slot is on its way. -/
theorem Carries.taken {k : Message}
    (h : Carries s t decoded ahead made got ups rest tail (some k)) :
    way ups rest (some k) ≠ [] := by
  obtain ⟨sent, hheld⟩ := h.flows
  unfold way
  rw [numberedOf_append, Option.toList_some, numberedOf_cons hheld.slot.1]
  simp

/-- Where the answer goes, and that no other is in its way. -/
theorem Carries.answer {call : Message}
    (h : Carries s t decoded (call :: ahead) made got ups rest tail held)
    {last out lastOut lost : List Message} {held' : Option Message}
    (hreplies : Avr.Replies call held held' last lastOut lost)
    (hout : numberedOf out = numberedOf lastOut) :
    lost = [] ∧ List.Forall₂ IsReply (numberedOf [call]) (numberedOf last) ∧
      (numberedOf ahead).map Message.serial ++ (way ups (rest ++ out) held').map Message.serial =
          awaited t.pi.pendingId ∧
        way ups rest held ++ numberedOf last = way ups (rest ++ out) held' := by
  have hwritten : ∀ held', way ups (rest ++ out) held' =
      numberedOf ups ++ numberedOf rest ++ numberedOf lastOut ++ numberedOf held'.toList := by
    intro held'
    simp [way, hout]
  by_cases hn : call.serial = serialIdToIgnore
  · have hkept : numberedOf last = [] ∧ numberedOf lastOut = [] ∧ held' = held ∧ lost = [] := by
      cases hreplies with
      | silent => exact ⟨rfl, rfl, rfl, rfl⟩
      | ignored _ _ hr hlast =>
        refine ⟨numberedOf_ignored (by simp [hr]), numberedOf_ignored fun m hm => ?_, rfl, rfl⟩
        rw [List.mem_singleton.mp (hlast.subset hm)]
        exact hr
      | held _ hr hr' => exact absurd (hr.1.trans hn) hr'
      | lost _ hr hr' => exact absurd (hr.1.trans hn) hr'
    obtain ⟨hlast, hlastOut, rfl, hlost⟩ := hkept
    have hway : way ups (rest ++ out) held' = way ups rest held' := by
      rw [hwritten, hlastOut, List.append_nil]
      simp [way]
    refine ⟨hlost, by rw [numberedOf_cons_ignored hn, hlast]; exact .nil, ?_, ?_⟩
    · have hpending := h.pending
      rw [numberedOf_cons_ignored hn] at hpending
      rw [hway]
      exact hpending
    · rw [hway, hlast, List.append_nil]
  · obtain ⟨hahead, hway, hawaited⟩ := h.free hn
    have hanswered := h.answered call List.mem_cons_self hn
    cases hreplies with
    | silent hsilent => exact absurd hanswered hsilent
    | ignored _ hr hr' => exact absurd (hr.1.symm.trans hr') hn
    | @held r _ hr hr' =>
      have hnext : way ups (rest ++ out) (some r) = [r] := by
        simp only [way, numberedOf_append, List.append_eq_nil_iff] at hway
        rw [hwritten, hway.1.1, hway.1.2, Option.toList_some, numberedOf_cons hr']
        rfl
      refine ⟨rfl, ?_, ?_, ?_⟩
      · rw [numberedOf_cons hn, numberedOf_cons hr']
        exact .cons hr .nil
      · rw [hahead, hawaited, hnext, List.map_singleton, hr.1]
        rfl
      · rw [hway, hnext, numberedOf_cons hr']
        rfl
    | lost => exact absurd hway h.taken

/-- `decode` is invoked with the next message. -/
theorem Carries.decodes {call : Message}
    (h : Carries s t decoded (call :: ahead) made got ups rest tail held) {c : Cpu}
    {sent made' out lost : List Message} {held' : Option Message}
    (hreads : Reads (s.decoder.calls ++ (decoded ++ call :: ahead)) t.pi.out c)
    (hcalls : c.state.decoder.calls = t.avr.state.decoder.calls ++ [call])
    (hflows : Flows c.state.link (sent ++ rest ++ out) held')
    (hemits : Avr.Emits t.avr.state.link c.state.link made' out lost)
    {first firstOut last lastOut : List Message} (hmade : made' = first ++ last)
    (hout : out = firstOut ++ lastOut) (hz : ∀ m ∈ first, m.serial = serialIdToIgnore)
    (hsub : firstOut.Sublist first) (hreplies : Avr.Replies call held held' last lastOut lost) :
    lost = [] ∧ Carries s ⟨c, t.pi⟩ (decoded ++ [call]) ahead (made ++ made') got ups
      (rest ++ out) tail held' := by
  have hfirst : numberedOf first = [] := numberedOf_ignored hz
  have hfirstOut : numberedOf firstOut = [] := numberedOf_ignored fun m hm => hz m (hsub.subset hm)
  have hsame : numberedOf out = numberedOf lastOut := by
    rw [hout, numberedOf_append, hfirstOut, List.nil_append]
  obtain ⟨rfl, hforall, hpending, hway⟩ := h.answer hreplies hsame
  have hahead : decoded ++ [call] ++ ahead = decoded ++ call :: ahead := by simp
  refine ⟨rfl, { h with
    calls := ?_
    reads := by rw [hahead]; exact hreads
    small := by rw [hahead]; exact h.small
    answered := fun m hm => h.answered m (List.mem_cons_of_mem _ hm)
    flows := ⟨sent, by simpa using hflows⟩
    contents := ?_
    parsed := ?_
    created := ?_
    discarded := ?_
    replies := ?_
    pending := hpending
    answers := ?_ }⟩
  · rw [hcalls, h.calls, List.append_assoc]
  · rw [hemits.contents, h.contents, List.append_assoc, List.flatMap_append]
  · dsimp only
    rw [hemits.spdr]
    exact h.parsed
  · dsimp only
    rw [hemits.created, h.created, List.append_assoc, ← List.map_append]
  · dsimp only
    rw [hemits.discarded, h.discarded, List.map_nil, List.append_nil]
  · rw [numberedOf_append, hmade, numberedOf_append, numberedOf_append, hfirst, List.nil_append]
    exact List.rel_append h.replies hforall
  · rw [numberedOf_append, hmade, numberedOf_append, hfirst, List.nil_append, h.answers,
      List.append_assoc, hway]

/-- What a step does with the messages ahead, `shift_data` and the slot. -/
inductive Turn (f f' : Avr.Flush) :
    List Message → Option Message → List Message → List Message → Option Message → Prop where
  | quiet {ahead : List Message} {held : Option Message} (flush : Avr.FlushQuiet f f') :
      Turn f f' ahead held [] ahead held
  | frees {ahead : List Message} {m : Message} (flush : f' = f)
      (space : Avr.flushShiftBufferSpace f ≥ Avr.enoughSpace) : Turn f f' ahead (some m) [] ahead none
  | decodes {call : Message} {ahead : List Message} {held held' : Option Message}
      (flush : Avr.Shifts call f f')
      (free : call.serial ≠ serialIdToIgnore → held = none ∧ held' ≠ none)
      (kept : call.serial = serialIdToIgnore → held' = held) :
      Turn f f' (call :: ahead) held [call] ahead held'

theorem Carries.slot {call : Message}
    (h : Carries s t decoded (call :: ahead) made got ups rest tail held)
    {held' : Option Message} {last lastOut lost : List Message}
    (hreplies : Avr.Replies call held held' last lastOut lost) :
    (call.serial ≠ serialIdToIgnore → held = none ∧ held' ≠ none) ∧
      (call.serial = serialIdToIgnore → held' = held) := by
  constructor
  · intro hn
    have hanswered := h.answered call List.mem_cons_self hn
    cases hreplies with
    | silent hsilent => exact absurd hanswered hsilent
    | ignored _ hr hr' => exact absurd (hr.1.symm.trans hr') hn
    | held => exact ⟨rfl, by simp⟩
    | lost => exact absurd (h.free hn).2.1 h.taken
  · intro hz
    cases hreplies with
    | silent => rfl
    | ignored => rfl
    | held _ hr hr' => exact absurd (hr.1.trans hz) hr'
    | lost => rfl

theorem Carries.main (h : Carries s t decoded ahead made got ups rest tail held) (e : MainEvent) :
    ∃ new ahead' made rest held',
      Carries s ⟨Avr.mainStep t.avr e, t.pi⟩ (decoded ++ new) ahead' made got ups rest tail held' ∧
        Turn t.avr.state.flush (Avr.mainStep t.avr e).state.flush ahead held new ahead' held' := by
  obtain ⟨sent, hflows⟩ := h.flows
  obtain ⟨held', made', out, lost, hflows', hemits, hdeed⟩ := Avr.mainStep_does hflows e
  have hreads := h.reads.main h.small e
  cases hdeed with
  | quiet calls flush hz hout =>
    have hmade := numberedOf_ignored hz
    have hwritten := numberedOf_ignored fun m hm => hz m (hout.subset hm)
    refine ⟨[], ahead, made ++ made', rest ++ out, held, ?_, .quiet flush⟩
    rw [List.append_nil]
    exact h.quiet hreads calls hflows' hemits hmade (by simp [way, hwritten])
  | @frees m calls flush space =>
    refine ⟨[], ahead, made ++ [], rest ++ [m], none, ?_, .frees flush space⟩
    rw [List.append_nil decoded]
    exact h.quiet hreads calls hflows' hemits rfl (by simp [way])
  | @decodes call _ _ first firstOut last lastOut _ calls flush hz hout hreplies =>
    -- The message is the next of those ahead.
    have hstream := hreads.stream
    rw [calls, h.calls, List.append_assoc, List.append_assoc] at hstream
    obtain ⟨ahead', rfl⟩ : ∃ ahead', ahead = call :: ahead' :=
      ⟨_, (List.append_cancel_left (List.append_cancel_left hstream)).symm⟩
    obtain ⟨hfree, hkept⟩ := h.slot hreplies
    obtain ⟨rfl, hcarries⟩ := h.decodes hreads calls hflows' hemits rfl rfl hz hout hreplies
    exact ⟨[call], ahead', _, _, held', hcarries, .decodes flush hfree hkept⟩

/-! ### `mcu_handle_t` -/

/-- A change of what the invariant does not look at. -/
theorem Carries.part (h : Carries s t decoded ahead made got ups rest tail held)
    (hstill : ∀ back, t.pi.pc ≠ .transfer back) (queue : List Bool) (rised : Bool) (pc : McuPc) :
    Carries s ⟨t.avr, { t.pi with interruptQueue := queue, interruptRised := rised, pc := pc }⟩
      decoded ahead made got ups rest tail held :=
  { h with still := fun _ => h.still hstill }

/-- A message is put on the wire. -/
theorem Carries.write (h : Carries s t decoded ahead made got ups rest tail held)
    (hstill : ∀ back, t.pi.pc ≠ .transfer back) {k : Message}
    (hsize : k.payload.length ≤ Avr.inSize) (hk : k.serial ≠ serialIdToIgnore → Answered k)
    {queue : List (List Byte)} (hqueue : ∀ msg ∈ queue, ∃ p : Push, msg = p.message.body)
    {id : Byte} (hid : (numberedOf [k]).map Message.serial ++ awaited t.pi.pendingId = awaited id)
    (back : McuPc) :
    Carries s ⟨t.avr, { t.pi with
        toQueue := queue, pendingId := id, out := k.frame, inn := [], pc := .transfer back }⟩
      decoded (ahead ++ [k]) made got ups rest tail held := by
  obtain ⟨hout, hinn⟩ := h.still hstill
  have happ : s.decoder.calls ++ (decoded ++ (ahead ++ [k])) =
      s.decoder.calls ++ (decoded ++ ahead) ++ [k] := by simp
  refine { h with
    reads := ?_
    small := ?_
    answered := ?_
    parsed := ?_
    pending := ?_
    queue := hqueue
    still := fun hpc => absurd rfl (hpc back) }
  · rw [happ]
    have hreads := h.reads
    rw [hout] at hreads
    unfold Avr.inSize at hsize
    exact hreads.extend (by omega)
  · intro m hm
    rw [happ] at hm
    rcases List.mem_append.mp hm with hm | hm
    · exact h.small m hm
    · rw [List.mem_singleton.mp hm]
      exact hsize
  · intro m hm
    rcases List.mem_append.mp hm with hm | hm
    · exact h.answered m hm
    · rw [List.mem_singleton.mp hm]
      exact hk
  · have hparsed := h.parsed
    rw [hinn] at hparsed
    exact hparsed
  · have hpending := h.pending
    by_cases hn : k.serial = serialIdToIgnore
    · rw [numberedOf_cons_ignored hn] at hid
      rw [numberedOf_append, numberedOf_cons_ignored hn, numberedOf_nil, List.append_nil, ← hid]
      exact hpending
    · rw [numberedOf_cons hn] at hid
      have hnone := (pending_of_awaited hid).2
      have hnone : awaited t.pi.pendingId = [] := hnone
      rw [hnone] at hpending hid
      obtain ⟨hahead, hway⟩ := List.append_eq_nil_iff.mp hpending
      rw [numberedOf_append, List.map_append, hahead, hway, numberedOf_cons hn, ← hid]
      rfl

/-- One serial at most is waited for. -/
theorem awaited_comm {as bs : List Byte} {id : Byte} (h : as ++ bs = awaited id) :
    bs ++ as = awaited id := by
  cases as with
  | nil => simpa using h
  | cons a as =>
    obtain ⟨-, hnone⟩ := pending_of_awaited h
    obtain ⟨rfl, rfl⟩ := List.append_eq_nil_iff.mp hnone
    exact h

/-- What a transfer has brought back is parsed. -/
theorem Carries.read (h : Carries s t decoded ahead made got ups rest tail held)
    (hout : t.pi.out = []) (back : McuPc) :
    (readMsg t.pi back).toQueue = t.pi.toQueue ∧ ∃ got left,
      Carries s ⟨t.avr, readMsg t.pi back⟩ decoded ahead made got left rest tail held := by
  obtain ⟨new, left, rfl, hnew, hleft⟩ := parse_split h.parsed
  have hway : way (new ++ left) rest held = numberedOf new ++ way left rest held := by
    simp [way]
  have hpending := awaited_comm h.pending
  rw [hway, List.map_append, List.append_assoc] at hpending
  obtain ⟨id, hrelaxed, hlater⟩ := relaxAll_awaited hpending
  obtain ⟨hnone, -⟩ | ⟨id', hsame, hfold⟩ := foldl_readByte h.thrown hnew
  · rw [hrelaxed] at hnone
    cases hnone
  obtain rfl : id = id' := Option.some.inj (hrelaxed.symm.trans hsame)
  unfold readMsg
  rw [hfold]
  refine ⟨rfl, got ++ new, left, ?_⟩
  refine { h with
    parsed := hleft
    pending := awaited_comm hlater
    handed := ?_
    answers := ?_
    still := fun _ => ⟨hout, rfl⟩ }
  · dsimp only
    rw [h.handed, List.map_append]
  · rw [h.answers, hway, numberedOf_append, List.append_assoc]

/-- But for IDLE a message that is sent comes from the queue. -/
theorem Carries.pi (h : Carries s t decoded ahead made got ups rest tail held) :
    ∃ new got ups,
      Carries s ⟨t.avr, mcuStep t.pi⟩ decoded (ahead ++ new) made got ups rest tail held ∧
        (pushedOf new).map Message.body ++ (mcuStep t.pi).toQueue = t.pi.toQueue ∧
        ∀ m ∈ pushedOf new, ∃ p : Push, p.message = m := by
  have hsame : ∀ {pi : McuHandle}, (∃ got ups,
      Carries s ⟨t.avr, pi⟩ decoded ahead made got ups rest tail held) →
      pi.toQueue = t.pi.toQueue → ∃ new got ups,
        Carries s ⟨t.avr, pi⟩ decoded (ahead ++ new) made got ups rest tail held ∧
          (pushedOf new).map Message.body ++ pi.toQueue = t.pi.toQueue ∧
          ∀ m ∈ pushedOf new, ∃ p : Push, p.message = m := by
    rintro pi ⟨got, ups, hcarries⟩ hqueue
    exact ⟨[], got, ups, by rwa [List.append_nil], by simpa using hqueue, by simp⟩
  by_cases hpc : ∃ back, t.pi.pc = .transfer back
  · obtain ⟨back, hpc⟩ := hpc
    unfold mcuStep
    rw [if_neg (by simp [h.thrown]), hpc]
    dsimp only
    split
    · rename_i hout
      obtain ⟨hqueue, hread⟩ := h.read hout back
      exact hsame hread hqueue
    · exact hsame ⟨got, ups, h⟩ rfl
  have hstill : ∀ back, t.pi.pc ≠ .transfer back := fun back hback => hpc ⟨back, hback⟩
  have hmove : McuMove t.pi (mcuStep t.pi) := mcuStep_move h.thrown h.queue hstill
  generalize mcuStep t.pi = pi at hmove ⊢
  cases hmove with
  | part queue rised pc => exact hsame ⟨got, ups, h.part hstill _ _ _⟩ rfl
  | idle back =>
    refine ⟨[⟨serialIdToIgnore, msgIdIdle, []⟩], got, ups,
      h.write hstill (by simp) (fun hn => absurd rfl hn) h.queue ?_ _, rfl, by simp [pushedOf]⟩
    rw [numberedOf_cons_ignored rfl]
    rfl
  | pop p queue back hqueue hfree =>
    have hrest : ∀ msg ∈ queue, ∃ p : Push, msg = p.message.body := fun msg hm =>
      h.queue msg (by rw [hqueue]; exact List.mem_cons_of_mem _ hm)
    have hanswered : p.message.serial ≠ serialIdToIgnore → Answered p.message :=
      fun hn => ⟨p.notIdle, fun hid => hn (p.serial.mpr hid)⟩
    have hpushed : pushedOf [p.message] = [p.message] :=
      List.filter_cons_of_pos (by simp [p.notIdle])
    have hawaited : (numberedOf [p.message]).map Message.serial ++ awaited t.pi.pendingId =
        awaited p.message.serial := by
      rw [hfree, awaited_ignored, List.append_nil]
      by_cases hn : p.message.serial = serialIdToIgnore
      · rw [numberedOf_cons_ignored hn, hn]
        rfl
      · rw [numberedOf_cons hn, awaited_of_ne hn]
        rfl
    refine ⟨[p.message], got, ups,
      h.write hstill (p.size.trans (by decide)) hanswered hrest hawaited _, ?_, ?_⟩
    · rw [hpushed, hqueue]
      rfl
    · rw [hpushed]
      exact fun m hm => ⟨p, (List.mem_singleton.mp hm).symm⟩

theorem Carries.push (h : Carries s t decoded ahead made got ups rest tail held) (p : Push) :
    Carries s (joinedStep t (.push p)) decoded ahead made got ups rest tail held := by
  refine { h with queue := fun msg hm => ?_ }
  rcases List.mem_append.mp hm with hm | hm
  · exact h.queue msg hm
  · exact ⟨p, List.mem_singleton.mp hm⟩

end Steps

/-! ### Every run -/

/-- Something is on its way, and all of it is accounted for. -/
def Carried (s : Avr.State) (t : Joined) : Prop :=
  ∃ decoded ahead made got ups rest tail held, Carries s t decoded ahead made got ups rest tail held

theorem Carried.step {s : Avr.State} {t : Joined} (h : Carried s t) {e : JoinedEvent}
    (hc : ReadBelow t e) : Carried s (joinedStep t e) := by
  obtain ⟨decoded, ahead, made, got, ups, rest, tail, held, h⟩ := h
  cases e with
  | main e =>
    obtain ⟨new, ahead, made, rest, held, h, -⟩ := h.main e
    exact ⟨_, _, _, _, _, _, _, _, h⟩
  | exchange =>
    unfold joinedStep
    dsimp only
    split
    · exact ⟨_, _, _, _, _, _, _, _, h⟩
    · rename_i b out hout
      obtain ⟨ups, rest, tail, h⟩ := h.exchange (hc (by rw [hout]; simp)) hout
      exact ⟨_, _, _, _, _, _, _, _, h⟩
  | pi =>
    obtain ⟨new, got, ups, h, -⟩ := h.pi
    exact ⟨_, _, _, _, _, _, _, _, h⟩
  | push p => exact ⟨_, _, _, _, _, _, _, _, h.push p⟩
  | interrupt rised => exact ⟨_, _, _, _, _, _, _, _, { h with }⟩

theorem Fresh.reads {s : Avr.State} (hs : Fresh s) : Reads s.decoder.calls [] ⟨s, .idle⟩ := by
  obtain ⟨sent, greeting, hflows, -⟩ := hs.link
  refine ⟨hflows.readValid, hs.inBuf, .inl hs.decoded, .inl rfl, fun _ => ?_, ?_, ?_⟩
  all_goals dsimp only; rw [Avr.phaseOf_seek hs.decoded]
  · rfl
  · rw [hs.readBuf]
    rfl
  · rw [hs.readBuf]
    exact List.append_nil _

theorem Fresh.carries {s : Avr.State} (hs : Fresh s) :
    ∃ greeting, Carries s (joinedStart s) [] [] [] [] [] greeting [] none := by
  obtain ⟨sent, greeting, hflows, hcontents, hserial⟩ := hs.link
  have hway : way [] greeting none = [] := by
    simp [way, numberedOf_ignored hserial]
  refine ⟨greeting, ?_⟩
  exact
    { calls := (List.append_nil _).symm
      reads := by simpa [joinedStart, mcuHandleInit] using hs.reads
      small := by simpa using hs.calls
      answered := by simp
      flows := ⟨sent, hflows⟩
      contents := hcontents
      parsed := by
        change parse [] [s.link.spdr] = _
        rw [parse_single, parseStep_skipped hs.spdr]
        rfl
      created := (List.append_nil _).symm
      discarded := rfl
      replies := .nil
      pending := by
        rw [hway]
        rfl
      handed := rfl
      answers := by
        rw [hway]
        rfl
      thrown := rfl
      mismatched := rfl
      queue := by simp [joinedStart, mcuHandleInit]
      still := fun _ => ⟨rfl, rfl⟩ }

theorem Fresh.carried {s : Avr.State} (hs : Fresh s) : Carried s (joinedStart s) := by
  obtain ⟨greeting, h⟩ := hs.carries
  exact ⟨_, _, _, _, _, _, _, _, h⟩

theorem carried_run {s : Avr.State} (hs : Fresh s) {es : List JoinedEvent}
    (h : Along joinedStep ReadBelow (joinedStart s) es) :
    Throughout joinedStep (Carried s) (joinedStart s) es :=
  throughout_of_along (fun _ _ ht hc => ht.step hc) hs.carried h

/-! ### One answer each -/

/-- Each numbered message decoded since `s` has had its one answer, which comes to
`m_from_queue` in its turn; none has been dropped, and neither `engage` nor `relax`
has met another serial. -/
structure Orderly (s : Avr.State) (t : Joined) : Prop where
  replies : ∃ decoded made got, t.avr.state.decoder.calls = s.decoder.calls ++ decoded ∧
    t.avr.state.link.created = s.link.created ++ made.map Message.frame ∧
    List.Forall₂ IsReply (numberedOf decoded) (numberedOf made) ∧
    t.pi.fromQueue = got.map Message.body ∧ numberedOf got <+: numberedOf made
  discarded : t.avr.state.link.discarded = s.link.discarded
  mismatched : t.pi.mismatched = false
  thrown : t.pi.thrown = false

theorem Carried.orderly {s : Avr.State} {t : Joined} (h : Carried s t) : Orderly s t := by
  obtain ⟨decoded, ahead, made, got, ups, rest, tail, held, h⟩ := h
  exact ⟨⟨decoded, made, got, h.calls, h.created, h.replies, h.handed, _, h.answers.symm⟩,
    h.discarded, h.mismatched, h.thrown⟩

/-- From a fresh start, with `read_buf` never filled to capacity, in whatever order
the main loop, the interrupts and the daemon take their steps. -/
theorem joined_orderly {s : Avr.State} (hs : Fresh s) {es : List JoinedEvent}
    (h : Along joinedStep ReadBelow (joinedStart s) es) :
    Throughout joinedStep (Orderly s) (joinedStart s) es := by
  have hall := carried_run hs h
  rw [throughout_iff_start] at hall ⊢
  exact fun ds hds => (hall ds hds).orderly

theorem init_fresh : Fresh Avr.init := by
  have hl : Avr.init.link = Avr.linkInit := Avr.modeSet_link _ _
  have hd : Avr.init.decoder = Avr.decodeInit Avr.decoderPower := Avr.modeSet_decoder _ _
  refine ⟨?_, ?_, ?_, ?_, ⟨[], [], ?_, ?_, by simp⟩, ?_⟩
  · rw [hl]
    exact AvrRing.ringInit_contents 255
  · rw [hd]
    rfl
  · rw [hd]
    rfl
  · rw [hd]
    simp [Avr.decodeInit, Avr.decoderPower]
  · rw [hl]
    exact Avr.linkInit_flows
  · rw [hl]
    exact AvrRing.ringInit_contents 255
  · rw [hl]
    decide

/-- The main loop, the daemon and the wire in turns. -/
def joinedTurns (n : ℕ) : List JoinedEvent :=
  (List.replicate n [.pi, .exchange, .exchange, .main .decodeStep, .main .decodeStep,
    .main .postponeTry]).flatten

/-- The second SYNC_CLOCK is pushed while the first waits for its answer. -/
@[irreducible] def clockRun : List JoinedEvent :=
  .push ⟨⟨1, msgIdSyncClock, [12, 30]⟩, by decide, by decide, by decide⟩ :: joinedTurns 8 ++
    .push ⟨⟨2, msgIdSyncClock, [12, 31]⟩, by decide, by decide, by decide⟩ ::
    .interrupt true :: joinedTurns 9 ++
    .interrupt false :: joinedTurns 8 ++ .interrupt true :: joinedTurns 10

theorem joined_orderly_of_clock :
    Throughout joinedStep (Orderly Avr.init) (joinedStart Avr.init) clockRun ∧
      (run joinedStep (joinedStart Avr.init) clockRun).pi.fromQueue =
        [(Message.mk 1 msgIdStatus [0, msgIdSyncClock]).body,
          (Message.mk 2 msgIdStatus [0, msgIdSyncClock]).body] :=
  ⟨joined_orderly init_fresh (by decide +kernel), by decide +kernel⟩

end LedServer
