import LedServer.JoinedFlow

set_option autoImplicit false

/-!
# The columns that reach `shift_data`

`mcu_handle_t` sends a LED_ARRAY once the last answer is there, and `postpone_try`
keeps the answer back until `shift_data` has `ENOUGH_SPACE` bytes free: there is
space for it when it comes.
-/
namespace LedServer
open Machine Mcu FrameReader
open LedServer.Pi (Push)
open Avr (Cpu MainEvent Reads Flush)

/-! ### A LED_ARRAY on the AVR -/

/-- The bytes that `decode` passes on are all in `in_buf`. -/
theorem Avr.Reads.shifts {ms : List Message} {coming : List Byte} {c : Cpu} (h : Reads ms coming c)
    (small : ∀ m ∈ ms, m.payload.length ≤ Avr.inSize) {e : MainEvent} {call : Message}
    (hcalls : (Avr.mainStep c e).state.decoder.calls = c.state.decoder.calls ++ [call])
    (hled : call.id = msgIdLedArray) :
    ∃ arr n, call.payload = arr.take n.toNat ∧ call.payload.length = n.toNat ∧
      (Avr.mainStep c e).state.flush = (Avr.flushShiftData c.state.flush arr n).1 := by
  have hsame : ∀ {d : Avr.Decoder}, d.calls = c.state.decoder.calls →
      (Avr.mainStep c e).state.decoder.calls ≠ d.calls := by
    intro d hd he
    rw [hcalls, hd] at he
    simp at he
  rcases Avr.mainStep_incoming c e with rfl | ⟨-, -, hdec⟩
  · obtain ⟨readBuf, d, hv, -, hd, he | ⟨hpc, hsize, he⟩⟩ := Avr.decodeStep_cases h.valid
    · exact absurd (congrArg (fun s => s.decoder.calls) he) (hsame hd)
    · change (Avr.decodeStep c).state.decoder.calls = _ at hcalls
      change ∃ arr n, _ ∧ _ ∧ (Avr.decodeStep c).state.flush = _
      have hin := (h.step small).inBuf
      rw [he] at hcalls hin ⊢
      rw [(Avr.decodeDone_incoming _).2] at hcalls hin
      obtain rfl : Avr.decodedMessage d = call := by
        have hcall : d.calls ++ [Avr.decodedMessage d] = c.state.decoder.calls ++ [call] := hcalls
        rw [hd] at hcall
        exact List.cons.inj (List.append_cancel_left hcall) |>.1
      have hlen : d.inBuf.length = Avr.inSize := hin
      have hfit : (d.msgSize - 2).toNat ≤ Avr.inSize := by
        have hplace := h.place.resolve_left (by rw [hpc]; simp)
        have hdecoded := Avr.decoded_of_readPayload h.flags (hplace ▸ hpc)
        obtain ⟨payload, rest, -, hneed, hmem⟩ := h.payload_split hdecoded
        have hsmall := small _ hmem
        rw [hsize]
        exact hneed.symm.trans_le hsmall
      refine ⟨d.inBuf, d.msgSize - 2, rfl, ?_, ?_⟩
      · change (d.inBuf.take (d.msgSize - 2).toNat).length = _
        rw [List.length_take, hlen, Nat.min_eq_left hfit]
      · obtain ⟨a, -, -, -, ⟨-, hflush, hdone⟩ | ⟨hother, -⟩⟩ := Avr.decode_spec
          { c.state with link := { c.state.link with readBuf := readBuf }, decoder := d }
        · change (Avr.decode _).flush = _
          rw [hdone]
          exact hflush
        · exact absurd hled hother
  · exact absurd (congrArg Avr.Decoder.calls hdec) (hsame rfl)

/-! ### The invariant -/

def isLedArray (m : Message) : Bool := m.id = msgIdLedArray

/-- The calls `news` of `flush_shift_data` since `s` are those for the LED_ARRAY
messages decoded, all accepted, and what came outside a drain is in `columns`. -/
structure Shifted (s : Avr.State) (f : Flush) (decoded : List Message) (news : List Avr.ShiftCall) :
    Prop where
  shifted : f.shifted = s.flush.shifted ++ news
  payloads : news.map Avr.ShiftCall.payload = (decoded.filter isLedArray).map Message.payload
  accepted : ∀ call ∈ news, call.accepted = true
  columns : f.columns = s.flush.columns ++
    (news.filter fun call => !call.drain).flatMap Avr.ShiftCall.payload

/-- There is space for a LED_ARRAY while the slot is free. -/
structure Roomy (f : Flush) (held : Option Message) : Prop where
  valid : f.shiftData.Valid
  free : held = none → f.shiftData.count ≤ 229
  below : f.shiftData.count ≤ 249

theorem Roomy.quiet {f f' : Flush} {held : Option Message} (h : Roomy f held)
    (hq : Avr.FlushQuiet f f') : Roomy f' held := by
  have hcount : f'.shiftData.count ≤ f.shiftData.count := by
    rw [← AvrRing.contents_length, ← AvrRing.contents_length]
    exact (hq.suffix h.valid).length_le
  exact ⟨hq.valid h.valid, fun hn => hcount.trans (h.free hn), hcount.trans h.below⟩

theorem Shifted.quiet {s : Avr.State} {f f' : Flush} {decoded new : List Message}
    {news : List Avr.ShiftCall} (h : Shifted s f decoded news) (hq : Avr.FlushQuiet f f')
    (hnew : new.filter isLedArray = []) : Shifted s f' (decoded ++ new) news where
  shifted := hq.shifted.trans h.shifted
  payloads := by rw [List.filter_append, hnew, List.append_nil]; exact h.payloads
  accepted := h.accepted
  columns := hq.columns.trans h.columns

/-- A LED_ARRAY that comes while the slot is free is accepted. -/
theorem shift_accepted {f : Flush} (h : Roomy f none) {arr : List Byte} {n : Byte}
    {payload : List Byte} (hpayload : payload = arr.take n.toNat) (hlen : payload.length = n.toNat)
    (hsize : payload.length ≤ ledArraySize) :
    ∃ call : Avr.ShiftCall, call.payload = payload ∧ call.accepted = true ∧
      (Avr.flushShiftData f arr n).1.shifted = f.shifted ++ [call] ∧
      (Avr.flushShiftData f arr n).1.columns =
        f.columns ++ ([call].filter fun call => !call.drain).flatMap Avr.ShiftCall.payload ∧
      (Avr.flushShiftData f arr n).1.shiftData.Valid ∧
      (Avr.flushShiftData f arr n).1.shiftData.count ≤ 249 := by
  have hroom := h.free rfl
  unfold ledArraySize at hsize
  unfold Avr.flushShiftData
  dsimp only
  by_cases hdrain : f.drain = true
  · rw [if_pos hdrain]
    exact ⟨⟨arr.take n.toNat, true, true⟩, hpayload.symm, rfl, rfl, by simp, h.valid, h.below⟩
  · obtain ⟨buf, hfill, hvalid, hcontents⟩ :=
      AvrRing.bufferArrayFill_below h.valid arr n hpayload.symm hlen (by omega)
    rw [if_neg hdrain, hfill]
    refine ⟨⟨arr.take n.toNat, false, true⟩, hpayload.symm, rfl, rfl, by simp, hvalid, ?_⟩
    dsimp only
    rw [← AvrRing.contents_length, hcontents, List.length_append, AvrRing.contents_length]
    omega

/-- A step of the main loop with a LED_ARRAY, if it decodes one, that fits. -/
theorem Shifted.turn {s : Avr.State} {f f' : Flush} {decoded ahead new ahead' : List Message}
    {held held' : Option Message} {news : List Avr.ShiftCall} (h : Shifted s f decoded news)
    (hr : Roomy f held) (ht : Turn f f' ahead held new ahead' held')
    (hled : ∀ m ∈ ahead, m.id = msgIdLedArray →
      m.serial ≠ serialIdToIgnore ∧ m.payload.length ≤ ledArraySize)
    (harr : ∀ call, new = [call] → call.id = msgIdLedArray → ∃ arr n,
      call.payload = arr.take n.toNat ∧ call.payload.length = n.toNat ∧
        f' = (Avr.flushShiftData f arr n).1) :
    (∃ news, Shifted s f' (decoded ++ new) news) ∧ Roomy f' held' := by
  cases ht with
  | quiet flush => exact ⟨⟨news, h.quiet flush rfl⟩, hr.quiet flush⟩
  | frees flush space =>
    subst flush
    refine ⟨⟨news, h.quiet (.refl _) rfl⟩, hr.valid, fun _ => ?_, hr.below⟩
    have hspace := AvrRing.bufferSpace_toNat hr.valid
    have henough : Avr.enoughSpace.toNat = 26 := rfl
    have hle : Avr.enoughSpace.toNat ≤ (AvrRing.bufferSpace f'.shiftData).toNat := space
    have hcount := AvrRing.buffer_count_le hr.valid
    omega
  | @decodes call _ _ _ flush free kept =>
    by_cases hid : call.id = msgIdLedArray
    · obtain ⟨hserial, hsize⟩ := hled call List.mem_cons_self hid
      obtain ⟨rfl, hheld⟩ := free hserial
      obtain ⟨arr, n, hpayload, hlen, rfl⟩ := harr call rfl hid
      obtain ⟨k, hk, haccepted, hshifted, hcolumns, hvalid, hcount⟩ :=
        shift_accepted hr hpayload hlen hsize
      have hcall : [call].filter isLedArray = [call] :=
        List.filter_cons_of_pos (by simp [isLedArray, hid])
      refine ⟨⟨news ++ [k], ?_, ?_, ?_, ?_⟩, hvalid, fun hn => absurd hn hheld, hcount⟩
      · rw [hshifted, h.shifted, List.append_assoc]
      · rw [List.map_append, h.payloads, List.filter_append, List.map_append, hcall,
          List.map_singleton, List.map_singleton, hk]
      · intro c hc
        rcases List.mem_append.mp hc with hc | hc
        · exact h.accepted c hc
        · rw [List.mem_singleton.mp hc]
          exact haccepted
      · rw [hcolumns, h.columns, List.append_assoc, List.filter_append, List.flatMap_append]
    · have hquiet : Avr.FlushQuiet f f' := by
        rcases flush with ⟨hid', -⟩ | ⟨-, hq⟩
        · exact absurd hid' hid
        · exact hq
      have hnew : [call].filter isLedArray = [] :=
        List.filter_cons_of_neg (by simp [isLedArray, hid])
      refine ⟨⟨news, h.quiet hquiet hnew⟩, ?_⟩
      have hroom := hr.quiet hquiet
      by_cases hn : call.serial = serialIdToIgnore
      · rw [kept hn]
        exact hroom
      · exact ⟨hroom.valid, fun hheld => absurd hheld (free hn).2, hroom.below⟩

/-! ### Every run -/

/-- The messages pushed in a run. -/
def pushes : List JoinedEvent → List Message
  | [] => []
  | .push p :: es => p.message :: pushes es
  | _ :: es => pushes es

theorem pushes_append (es ds : List JoinedEvent) : pushes (es ++ ds) = pushes es ++ pushes ds := by
  induction es with
  | nil => rfl
  | cons e es ih => cases e <;> simp [pushes, ih]

/-- Of what has been pushed the first part is decoded, the next on its way and the
rest in the queue. -/
structure Lossless (s : Avr.State) (sent : List Message) (t : Joined) : Prop where
  order : ∃ decoded ahead queued news, t.avr.state.decoder.calls = s.decoder.calls ++ decoded ∧
    t.pi.toQueue = queued.map Message.body ∧
    pushedOf decoded ++ pushedOf ahead ++ queued = sent ∧
    Shifted s t.avr.state.flush decoded news
  below : t.avr.state.flush.shiftData.contents.length < 255

/-- The invariant: what `Carries` says, with the columns and the queue. -/
structure Fills (s : Avr.State) (sent : List Message) (t : Joined) (decoded ahead made got ups
    rest : List Message) (tail : List Byte) (held : Option Message) (queued : List Push) :
    Prop where
  carries : Carries s t decoded ahead made got ups rest tail held
  shifted : ∃ news, Shifted s t.avr.state.flush decoded news
  roomy : Roomy t.avr.state.flush held
  posted : ∀ m ∈ pushedOf ahead, ∃ p : Push, p.message = m
  queue : t.pi.toQueue = queued.map fun p => p.message.body
  order : pushedOf decoded ++ pushedOf ahead ++ queued.map Push.message = sent

theorem Turn.split {f f' : Flush} {ahead new ahead' : List Message} {held held' : Option Message}
    (h : Turn f f' ahead held new ahead' held') : ahead = new ++ ahead' := by
  cases h <;> rfl

section Steps

variable {s : Avr.State} {sent : List Message} {t : Joined}
variable {decoded ahead made got ups rest : List Message} {tail : List Byte}
variable {held : Option Message} {queued : List Push}

theorem Fills.led (h : Fills s sent t decoded ahead made got ups rest tail held queued)
    {m : Message} (hm : m ∈ ahead) (hid : m.id = msgIdLedArray) :
    m.serial ≠ serialIdToIgnore ∧ m.payload.length ≤ ledArraySize := by
  have hpushed : m ∈ pushedOf ahead := List.mem_filter.mpr ⟨hm, by rw [hid]; decide⟩
  obtain ⟨p, rfl⟩ := h.posted m hpushed
  refine ⟨fun hz => ?_, p.size⟩
  have hshake := p.serial.mp hz
  rw [hid] at hshake
  exact absurd hshake (by decide)

theorem Fills.main (h : Fills s sent t decoded ahead made got ups rest tail held queued)
    (e : MainEvent) : ∃ decoded ahead made rest held,
      Fills s sent ⟨Avr.mainStep t.avr e, t.pi⟩ decoded ahead made got ups rest tail held
        queued := by
  obtain ⟨new, ahead', made', rest', held', hcarries, hturn⟩ := h.carries.main e
  obtain ⟨news, hshifted⟩ := h.shifted
  have harr : ∀ call, new = [call] → call.id = msgIdLedArray → ∃ arr n,
      call.payload = arr.take n.toNat ∧ call.payload.length = n.toNat ∧
        (Avr.mainStep t.avr e).state.flush = (Avr.flushShiftData t.avr.state.flush arr n).1 := by
    rintro call rfl hid
    refine h.carries.reads.shifts h.carries.small ?_ hid
    rw [h.carries.calls, List.append_assoc]
    exact hcarries.calls
  obtain ⟨hshifted', hroomy⟩ := hshifted.turn h.roomy hturn (fun m hm => h.led hm) harr
  have hsplit := hturn.split
  refine ⟨decoded ++ new, ahead', made', rest', held', hcarries, hshifted', hroomy,
    fun m hm => h.posted m ?_, h.queue, ?_⟩
  · rw [hsplit, pushedOf_append]
    exact List.mem_append_right _ hm
  · have horder := h.order
    rw [hsplit, pushedOf_append] at horder
    rw [pushedOf_append, List.append_assoc (pushedOf decoded)]
    exact horder

theorem Fills.pi (h : Fills s sent t decoded ahead made got ups rest tail held queued) :
    ∃ ahead got ups queued,
      Fills s sent ⟨t.avr, mcuStep t.pi⟩ decoded ahead made got ups rest tail held queued := by
  obtain ⟨new, got, ups, hcarries, hqueue, hposted⟩ := h.carries.pi
  rw [h.queue] at hqueue
  obtain ⟨taken, left, rfl, htaken, hleft⟩ := List.map_eq_append_iff.mp hqueue.symm
  have hnew : taken.map Push.message = pushedOf new := by
    refine List.map_injective_iff.mpr Message.body_injective ?_
    rw [List.map_map]
    exact htaken
  refine ⟨ahead ++ new, got, ups, left, hcarries, h.shifted, h.roomy, fun m hm => ?_, hleft.symm,
    ?_⟩
  · rw [pushedOf_append, List.mem_append] at hm
    exact hm.elim (h.posted m) (hposted m)
  · rw [pushedOf_append, ← hnew, ← h.order, List.map_append]
    simp only [List.append_assoc]

theorem Fills.step (h : Fills s sent t decoded ahead made got ups rest tail held queued)
    {e : JoinedEvent} (hc : ReadBelow t e) : ∃ decoded ahead made got ups rest tail held queued,
      Fills s (sent ++ pushes [e]) (joinedStep t e) decoded ahead made got ups rest tail held
        queued := by
  cases e with
  | main e =>
    obtain ⟨_, _, _, _, _, h⟩ := h.main e
    exact ⟨_, _, _, _, _, _, _, _, _, (List.append_nil sent).symm ▸ h⟩
  | exchange =>
    rw [show pushes [.exchange] = [] from rfl, List.append_nil]
    unfold joinedStep
    dsimp only
    split
    · exact ⟨_, _, _, _, _, _, _, _, _, h⟩
    · rename_i b out hout
      obtain ⟨_, _, _, hcarries⟩ := h.carries.exchange (hc (by rw [hout]; simp)) hout
      exact ⟨_, _, _, _, _, _, _, _, _, { h with carries := hcarries }⟩
  | pi =>
    obtain ⟨_, _, _, _, h⟩ := h.pi
    exact ⟨_, _, _, _, _, _, _, _, _, (List.append_nil sent).symm ▸ h⟩
  | push p =>
    refine ⟨_, _, _, _, _, _, _, _, queued ++ [p], { h with
      carries := h.carries.push p
      queue := ?_
      order := ?_ }⟩
    · rw [List.map_append, ← h.queue]
      rfl
    · rw [List.map_append, ← List.append_assoc, h.order]
      rfl
  | interrupt rised =>
    rw [show pushes [.interrupt rised] = [] from rfl, List.append_nil]
    exact ⟨_, _, _, _, _, _, _, _, _, { h with carries := { h.carries with } }⟩

theorem Fills.lossless (h : Fills s sent t decoded ahead made got ups rest tail held queued) :
    Lossless s sent t := by
  obtain ⟨news, hshifted⟩ := h.shifted
  refine ⟨⟨decoded, ahead, queued.map Push.message, news, h.carries.calls, ?_, h.order, hshifted⟩,
    ?_⟩
  · rw [h.queue, List.map_map]
    rfl
  · have hbelow := h.roomy.below
    rw [AvrRing.contents_length]
    omega

end Steps

/-- From a fresh start with an empty `shift_data`, in whatever order the main loop,
the interrupts, the ticks and the daemon take their steps: every LED_ARRAY that is
decoded is accepted, and the columns that come outside a drain are all appended. -/
theorem joined_lossless {s : Avr.State} (hs : Fresh s) (hv : s.flush.shiftData.Valid)
    (hempty : s.flush.shiftData.contents = []) {es : List JoinedEvent}
    (h : Along joinedStep ReadBelow (joinedStart s) es) :
    Lossless s (pushes es) (run joinedStep (joinedStart s) es) := by
  suffices hfills : ∃ decoded ahead made got ups rest tail held queued,
      Fills s (pushes es) (run joinedStep (joinedStart s) es) decoded ahead made got ups rest tail
        held queued by
    obtain ⟨_, _, _, _, _, _, _, _, _, hfills⟩ := hfills
    exact hfills.lossless
  induction es using List.reverseRecOn with
  | nil =>
    have hroomy : Roomy s.flush none := by
      have hcount : s.flush.shiftData.count = 0 := by
        rw [← AvrRing.contents_length, hempty]
        rfl
      exact ⟨hv, fun _ => by omega, by omega⟩
    obtain ⟨greeting, hcarries⟩ := hs.carries
    exact ⟨[], [], [], [], [], greeting, [], none, [], hcarries,
      ⟨[], (List.append_nil _).symm, rfl, by simp, (List.append_nil _).symm⟩,
      hroomy, by simp, rfl, rfl⟩
  | append_singleton es e ih =>
    obtain ⟨hes, he, -⟩ := (along_append ..).mp h
    obtain ⟨_, _, _, _, _, _, _, _, _, hfills⟩ := ih hes
    rw [run_append, pushes_append]
    exact hfills.step he

/-- Four columns are sent and decoded. -/
def columnRun : List JoinedEvent :=
  .push ⟨⟨1, msgIdLedArray, [1, 2, 3, 4]⟩, by decide, by decide, by decide⟩ ::
    (List.replicate 4 JoinedEvent.pi ++ List.replicate 8 JoinedEvent.exchange ++ [JoinedEvent.pi] ++
      List.replicate 6 (JoinedEvent.main .decodeStep))

theorem joined_lossless_of_columns :
    Lossless Avr.init (pushes columnRun) (run joinedStep (joinedStart Avr.init) columnRun) :=
  joined_lossless init_fresh
    (by rw [show Avr.init.flush = Avr.flushInit from Avr.modeSet_flush _ _]
        exact AvrRing.bufferInit_valid)
    (by rw [show Avr.init.flush = Avr.flushInit from Avr.modeSet_flush _ _]
        exact AvrRing.ringInit_contents 255)
    (by decide +kernel)

end LedServer
