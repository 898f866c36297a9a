import LedServer.FlushWindow
import LedServer.SessionReset
import LedServer.Whole

set_option autoImplicit false

/-!
# The text on the display

What the dumps put on the pins while a text scrolls: window after window of the
columns that were in `shift_data` and of those rendered for the texts given out
by the content.
-/
namespace LedServer
open Machine Mcu LedServer.Pi
open Avr (MainEvent windowAt Scrolls Scrolled)
open AvrRing (Buffer)

/-! ### Dump after dump -/

/-- `dumps` have gone out of `columns`, the rest of which is in `data`. -/
structure Passing (columns : List Byte) (dumps : List Buffer) (data : Buffer) : Prop where
  valid : data.Valid
  length : dumps.length ≤ columns.length
  contents : data.contents = columns.drop dumps.length
  shown : ∀ k b, dumps[k]? = some b → k + 64 ≤ columns.length ∧
    ∀ stableData, Avr.dumpFrame b stableData 1 = windowAt columns k

theorem Passing.start {data : Buffer} (h : data.Valid) : Passing data.contents [] data :=
  ⟨h, Nat.zero_le _, List.drop_zero.symm, fun k b hb => by simp at hb⟩

theorem Passing.fill {columns more : List Byte} {dumps : List Buffer} {data data' : Buffer}
    (h : Passing columns dumps data) (hv : data'.Valid)
    (hdata : data'.contents = data.contents ++ more) : Passing (columns ++ more) dumps data' := by
  refine ⟨hv, h.length.trans ?_, ?_, fun k b hb => ?_⟩
  · rw [List.length_append]
    omega
  · rw [hdata, h.contents, List.drop_append_of_le_length h.length]
  · obtain ⟨hlength, hframe⟩ := h.shown k b hb
    refine ⟨?_, fun stableData => (hframe stableData).trans (Avr.windowAt_append hlength more).symm⟩
    rw [List.length_append]
    omega

theorem Passing.dump {columns : List Byte} {dumps : List Buffer} {data : Buffer}
    (h : Passing columns dumps data) (held : 64 ≤ data.count) :
    Passing columns (dumps ++ [data]) (AvrRing.bufferByteDrain data).1 := by
  have hcount : data.count = columns.length - dumps.length := by
    rw [← AvrRing.contents_length, h.contents, List.length_drop]
  have hnext : data.contents = columns[dumps.length] :: columns.drop (dumps.length + 1) := by
    rw [h.contents]
    exact List.drop_eq_getElem_cons (by omega)
  obtain ⟨data', hdrain, hvalid, hcontents⟩ := AvrRing.bufferByteDrain_cons h.valid hnext
  rw [hdrain]
  refine ⟨hvalid, ?_, ?_, fun k b hb => ?_⟩
  · rw [List.length_append, List.length_singleton]
    omega
  · rw [List.length_append, List.length_singleton]
    exact hcontents
  · rcases Nat.lt_trichotomy k dumps.length with hlt | rfl | hgt
    · rw [List.getElem?_append_left hlt] at hb
      exact h.shown k b hb
    · rw [List.getElem?_append_right (le_refl _), Nat.sub_self] at hb
      obtain rfl : data = b := Option.some.inj hb
      refine ⟨by omega, fun stableData => ?_⟩
      rw [Avr.frame_shift h.valid stableData held, h.contents, Avr.windowAt_drop]
    · rw [List.getElem?_eq_none (by rw [List.length_append, List.length_singleton]; omega)] at hb
      cases hb

/-! ### One step -/

/-- The columns decoded since `s`. -/
def decodedColumns (s : Avr.State) (t : Whole) : List Byte :=
  ledColumns (t.avr.state.decoder.calls.drop s.decoder.calls.length)

section Steps

variable {s : Avr.State} {firstByte : Byte} {t : Whole} {sent decoded : List Message}

theorem Conveys.decodedColumns (h : Conveys s firstByte t sent decoded) :
    decodedColumns s t = ledColumns decoded := by
  unfold LedServer.decodedColumns
  rw [h.calls, List.drop_left]

/-- More messages have been decoded. -/
theorem decodedColumns_more {u : Whole} {news : List Message}
    (h : Conveys s firstByte t sent decoded)
    (hcalls : u.avr.state.decoder.calls = t.avr.state.decoder.calls ++ news) :
    LedServer.decodedColumns s u = LedServer.decodedColumns s t ++ ledColumns news := by
  have hlength : s.decoder.calls.length ≤ t.avr.state.decoder.calls.length := by
    rw [h.calls, List.length_append]
    omega
  unfold LedServer.decodedColumns
  rw [hcalls, List.drop_append_of_le_length hlength, ledColumns_append]

theorem ledColumns_none {ms : List Message} (h : ∀ m ∈ ms, m.id ≠ msgIdLedArray) :
    ledColumns ms = [] := by
  have hnone : ms.filter (·.id = msgIdLedArray) = [] :=
    List.filter_eq_nil_iff.mpr fun m hm => by simpa using h m hm
  rw [ledColumns, hnone]
  rfl

/-- A LED_ARRAY that is decoded outside a drain is appended as a whole. -/
theorem Fills.fill {j : Joined} {ahead made got ups rest : List Message} {tail : List Byte}
    {held : Option Message} {queued : List Push}
    (h : Fills s sent j decoded ahead made got ups rest tail held queued) {e : MainEvent}
    {call : Message}
    (hcalls : (Avr.mainStep j.avr e).state.decoder.calls = j.avr.state.decoder.calls ++ [call])
    (hled : call.id = msgIdLedArray) (hdrain : j.avr.state.flush.drain = false) :
    (Avr.mainStep j.avr e).state.flush.shiftData.Valid ∧
      (Avr.mainStep j.avr e).state.flush.shiftData.contents =
        j.avr.state.flush.shiftData.contents ++ call.payload := by
  obtain ⟨new, ahead', _, _, held', hcarries, hturn⟩ := h.carries.main e
  obtain ⟨arr, n, hpayload, hlen, hflush⟩ := h.carries.reads.shifts h.carries.small hcalls hled
  have hnew : new = [call] := by
    have hsince : (Avr.mainStep j.avr e).state.decoder.calls =
        s.decoder.calls ++ (decoded ++ new) := hcarries.calls
    rw [hcalls, h.carries.calls, List.append_assoc] at hsince
    exact (List.append_cancel_left (List.append_cancel_left hsince)).symm
  subst hnew
  have hroom : j.avr.state.flush.shiftData.count ≤ 229 ∧ call.payload.length ≤ ledArraySize := by
    cases hturn with
    | decodes _ free =>
      obtain ⟨hserial, hsize⟩ := h.led List.mem_cons_self hled
      obtain ⟨rfl, -⟩ := free hserial
      exact ⟨h.roomy.free rfl, hsize⟩
  unfold ledArraySize at hroom
  obtain ⟨buf, hfill, hvalid, hcontents⟩ :=
    AvrRing.bufferArrayFill_below h.roomy.valid arr n hpayload.symm hlen (by omega)
  rw [hflush]
  unfold Avr.flushShiftData
  dsimp only
  rw [if_neg (by rw [hdrain]; decide), hfill]
  exact ⟨hvalid, hcontents⟩

theorem Conveys.dataValid (h : Conveys s firstByte t sent decoded) :
    t.avr.state.flush.shiftData.Valid := by
  obtain ⟨_, _, _, _, _, _, _, _, hfills⟩ := h.fills
  exact hfills.roomy.valid

/-- While a text scrolls, a step of the main loop dumps a window, appends a
LED_ARRAY or does neither. -/
theorem Passing.main (h : Conveys s firstByte t sent decoded) {columns : List Byte}
    {dumps : List Buffer} (hp : Passing columns dumps t.avr.state.flush.shiftData) {e : MainEvent}
    (hscrolls : Scrolls t.avr.state.menu.state)
    (hsame : (Avr.mainStep t.avr e).state.menu.state = t.avr.state.menu.state) :
    ∃ news, (Avr.mainStep t.avr e).state.decoder.calls = t.avr.state.decoder.calls ++ news ∧
      Passing (columns ++ ledColumns news) (dumps ++ Avr.dumped t.avr e)
        (Avr.mainStep t.avr e).state.flush.shiftData := by
  have hturned := Avr.mainStep_turned h.readValid h.unfurled e
  rcases hturned.scrolled hscrolls hsame with
    ⟨hscrolled, news, hcalls, hnone⟩ | ⟨hnothing, call, hcalls, hled⟩
  · refine ⟨news, hcalls, ?_⟩
    rw [ledColumns_none hnone, List.append_nil]
    generalize Avr.dumped t.avr e = dump at hscrolled ⊢
    cases hscrolled with
    | still hdata =>
      rw [hdata, List.append_nil]
      exact hp
    | shows held hdata =>
      rw [hdata]
      exact hp.dump held
  · obtain ⟨_, _, _, _, _, _, _, _, hfills⟩ := h.fills
    obtain ⟨hvalid, hdata⟩ := hfills.fill hcalls hled (h.unfurled hscrolls)
    refine ⟨[call], hcalls, ?_⟩
    have hone : ledColumns [call] = call.payload := by
      rw [ledColumns_cons hled]
      exact List.append_nil _
    rw [hnothing, List.append_nil, hone]
    exact hp.fill hvalid hdata

/-- The daemon leaves the display and the decoder alone. -/
theorem daemonStep_avr (t : Whole) (e : WholeEvent) :
    (t.daemonStep e).avr.state.flush = t.avr.state.flush ∧
      (t.daemonStep e).avr.state.decoder = t.avr.state.decoder ∧
      (t.daemonStep e).dumps = t.dumps := by
  cases e with
  | main e => exact ⟨rfl, rfl, rfl⟩
  | exchange =>
    unfold Whole.daemonStep joinedStep
    dsimp only
    split <;> exact ⟨rfl, rfl, rfl⟩
  | pi => exact ⟨rfl, rfl, rfl⟩
  | interrupt rised => exact ⟨rfl, rfl, rfl⟩
  | handleMcu =>
    unfold Whole.daemonStep Whole.popMcu
    dsimp only
    split
    · exact ⟨rfl, rfl, rfl⟩
    · split <;> exact ⟨rfl, rfl, rfl⟩
  | handleStatus status =>
    unfold Whole.daemonStep Whole.popStatus
    dsimp only
    split <;> exact ⟨rfl, rfl, rfl⟩

/-- Since `t₀` the columns of the LED_ARRAYs decoded have followed those that were
in `shift_data`. -/
def Passes (s : Avr.State) (t₀ t : Whole) : Prop :=
  ∃ dumps more, t.dumps = t₀.dumps ++ dumps ∧
    decodedColumns s t = decodedColumns s t₀ ++ more ∧
    Passing (t₀.avr.state.flush.shiftData.contents ++ more) dumps t.avr.state.flush.shiftData

theorem Passes.step {t₀ : Whole} (hp : Passes s t₀ t) (h : Conveys s firstByte t sent decoded)
    {e : WholeEvent} (hscrolls : Scrolls t.avr.state.menu.state)
    (hsame : (wholeStep t e).avr.state.menu.state = t.avr.state.menu.state) :
    Passes s t₀ (wholeStep t e) := by
  obtain ⟨dumps, more, hdumps, hmore, hpassing⟩ := hp
  have hquiet : ∀ t' : Whole, t'.avr.state.flush = t.avr.state.flush →
      t'.avr.state.decoder = t.avr.state.decoder → t'.dumps = t.dumps → Passes s t₀ t' := by
    intro t' hflush hdecoder hdumps'
    refine ⟨dumps, more, hdumps'.trans hdumps, ?_, by rw [hflush]; exact hpassing⟩
    unfold LedServer.decodedColumns at hmore ⊢
    rw [hdecoder, hmore]
  cases e with
  | main e =>
    obtain ⟨news, hcalls, hnext⟩ := Passing.main h hpassing hscrolls hsame
    refine ⟨dumps ++ Avr.dumped t.avr e, more ++ ledColumns news, ?_, ?_, ?_⟩
    · show t.dumps ++ Avr.dumped t.avr e = _
      rw [hdumps, List.append_assoc]
    · rw [decodedColumns_more (u := wholeStep t (.main e)) h hcalls, hmore, List.append_assoc]
    · rw [← List.append_assoc]
      exact hnext
  | _ =>
    unfold wholeStep
    dsimp only
    split
    · exact hquiet t rfl rfl rfl
    · obtain ⟨hflush, hdecoder, hdumps'⟩ := daemonStep_avr t _
      exact hquiet _ hflush hdecoder hdumps'

end Steps

/-! ### Every run -/

theorem passes_run {s : Avr.State} (hs : Blank s) {trackRegexList : List (Text → Option Text)}
    {firstByte : Byte} {es fs : List WholeEvent}
    (h : Along wholeStep WholeBelow (wholeStart s trackRegexList firstByte) (es ++ fs))
    {state : Avr.MenuState} (hscrolls : Scrolls state)
    (hsteady : Throughout wholeStep (fun t => t.avr.state.menu.state = state)
      (run wholeStep (wholeStart s trackRegexList firstByte) es) fs) :
    Passes s (run wholeStep (wholeStart s trackRegexList firstByte) es)
      (run wholeStep (wholeStart s trackRegexList firstByte) (es ++ fs)) := by
  rw [throughout_iff_start] at hsteady
  induction fs using List.reverseRecOn with
  | nil =>
    rw [List.append_nil] at h ⊢
    obtain ⟨_, _, hconveys⟩ := conveys_run hs h
    refine ⟨[], [], (List.append_nil _).symm, (List.append_nil _).symm, ?_⟩
    rw [List.append_nil]
    exact .start hconveys.dataValid
  | append_singleton fs e ih =>
    rw [← List.append_assoc] at h ⊢
    obtain ⟨hbefore, -⟩ := (along_append ..).mp h
    obtain ⟨_, _, hconveys⟩ := conveys_run hs hbefore
    have hstate := hsteady fs (List.prefix_append fs [e])
    rw [← run_append] at hstate
    have hstate' := hsteady (fs ++ [e]) (List.prefix_refl _)
    rw [← run_append, ← List.append_assoc, run_append] at hstate'
    have hpasses := ih hbefore fun ds hd => hsteady ds (hd.trans (List.prefix_append fs [e]))
    rw [run_append]
    refine hpasses.step hconveys (by rw [hstate]; exact hscrolls) ?_
    rw [hstate]
    exact hstate'

/-- Over every run: each system text that has come in waits or has been given out,
once and in its order, and what the AVR has decoded is the beginning of what the
texts given out are rendered to, no column lost or doubled on the way. -/
theorem text_conveyed {s : Avr.State} (hs : Blank s)
    {trackRegexList : List (Text → Option Text)} {firstByte : Byte} {es : List WholeEvent}
    (h : Along wholeStep WholeBelow (wholeStart s trackRegexList firstByte) es) :
    let t := run wholeStep (wholeStart s trackRegexList firstByte) es
    givenFrom .middle t.given ++ t.handle.content.middleInfo = t.arrived ∧
      decodedColumns s t <+: (pixelize firstByte (runningText t.given)).2 := by
  intro t
  obtain ⟨sent, decoded, hconveys⟩ := conveys_run hs h
  exact ⟨hconveys.lines, hconveys.decodedColumns ▸ hconveys.prefix⟩

open Avr in
/-- While the menu stays closed, or goes on showing a name, the `k`-th dump puts the
`k`-th window on the pins: of the columns `shift_data` held before and of those of
the texts given out, from the first on that had not been decoded. -/
theorem text_scrolls {s : State} (hs : Blank s) {trackRegexList : List (Text → Option Text)}
    {firstByte : Byte} {es fs : List WholeEvent}
    (h : Along wholeStep WholeBelow (wholeStart s trackRegexList firstByte) (es ++ fs))
    {state : MenuState} (hscrolls : Scrolls state)
    (hsteady : Throughout wholeStep (fun t => t.avr.state.menu.state = state)
      (run wholeStep (wholeStart s trackRegexList firstByte) es) fs) :
    let t₀ := run wholeStep (wholeStart s trackRegexList firstByte) es
    let t := run wholeStep t₀ fs
    let columns := t₀.avr.state.flush.shiftData.contents ++
      (pixelize firstByte (runningText t.given)).2.drop (decodedColumns s t₀).length
    ∃ dumps, t.dumps = t₀.dumps ++ dumps ∧
      ∀ k shiftData, dumps[k]? = some shiftData → k + 64 ≤ columns.length ∧
        ∀ (stableData : List Byte) (port : Byte),
          left.latched port (dump shiftData stableData 1) =
            dataHeader ++ (windowAt columns k).left.flatMap columnBits ∧
          right.latched port (dump shiftData stableData 1) =
            dataHeader ++ (windowAt columns k).right.flatMap columnBits := by
  intro t₀ t columns
  have hrun : run wholeStep (wholeStart s trackRegexList firstByte) (es ++ fs) = t := run_append ..
  have hpasses := passes_run hs h hscrolls hsteady
  obtain ⟨sent, decoded, hconveys⟩ := conveys_run hs h
  rw [hrun] at hpasses hconveys
  obtain ⟨dumps, more, hdumps, hmore, hpassing⟩ := hpasses
  have hprefix := hconveys.prefix
  rw [← hconveys.decodedColumns, hmore] at hprefix
  obtain ⟨later, hstream⟩ := hprefix
  have hcolumns : columns = t₀.avr.state.flush.shiftData.contents ++ more ++ later := by
    show _ ++ (pixelize firstByte (runningText t.given)).2.drop (decodedColumns s t₀).length = _
    rw [← hstream, List.append_assoc, List.drop_left, ← List.append_assoc]
  refine ⟨dumps, hdumps, fun k shiftData hk => ?_⟩
  obtain ⟨hshown, hframe⟩ := hpassing.shown k shiftData hk
  have hlength : k + 64 ≤ (t₀.avr.state.flush.shiftData.contents ++ more).length := hshown
  rw [hcolumns]
  refine ⟨?_, fun stableData port => ?_⟩
  · rw [List.length_append]
    omega
  · rw [windowAt_append hlength later, dump_left, dump_right, hframe stableData]
    exact ⟨rfl, rfl⟩

/-- The AVR that a new daemon has greeted. -/
theorem greeted_blank : Blank (Avr.int3Vect Avr.init) := by
  have hl : Avr.init.link = Avr.linkInit := Avr.modeSet_link _ _
  have hd : Avr.init.decoder = Avr.decodeInit Avr.decoderPower := Avr.modeSet_decoder _ _
  have hf : Avr.init.flush = Avr.flushInit := Avr.modeSet_flush _ _
  have hflows : Avr.Flows Avr.init.link [] none := by
    rw [hl]
    exact Avr.linkInit_flows
  have hdecoder : (Avr.int3Vect Avr.init).decoder = Avr.decodeInit Avr.init.decoder := rfl
  have hflush : (Avr.int3Vect Avr.init).flush = Avr.flushInit := hf
  obtain ⟨hsent, hwrite, hread, -⟩ := Avr.int3Vect_flows hflows
  have hspdr : (Avr.int3Vect Avr.init).link.spdr = Avr.init.link.spdr := by
    unfold Avr.int3Vect Avr.encodeMsg1 Avr.postponeMessage
    dsimp only
    split_ifs <;> rfl
  refine ⟨⟨hread, ?_, ?_, ?_, ⟨[], [Avr.versionMessage], hsent, ?_, by simp; rfl⟩, ?_⟩, ?_, ?_, ?_⟩
  · rw [hdecoder]
    rfl
  · rw [hdecoder, hd]
    rfl
  · rw [hdecoder, hd]
    simp [Avr.decodeInit, Avr.decoderPower]
  · rw [hwrite]
    simp
  · rw [hspdr, hl]
    decide
  · rw [hflush]
    exact AvrRing.bufferInit_valid
  · rw [hflush]
    exact AvrRing.ringInit_contents 255
  · intro _
    rw [hflush]
    rfl

/-- Turns of the daemon and the main loop, two bytes exchanged in each. -/
def wireTurns (n : ℕ) : List WholeEvent :=
  (List.replicate n [.pi, .exchange, .exchange, .main .decodeStep, .main .decodeStep,
    .main .postponeTry]).flatten

/-- VERSION goes up, HANDSHAKE comes down. -/
@[irreducible] def greetedRun : List WholeEvent :=
  .interrupt true :: wireTurns 12 ++ .handleMcu :: .interrupt false :: wireTurns 7

/-- A LED_ARRAY comes down, its STATUS goes up. -/
def arrayRun : List WholeEvent :=
  wireTurns 17 ++ .interrupt true :: wireTurns 9 ++ [WholeEvent.interrupt false]

/-- Four LED_ARRAYs, and two dumps. -/
@[irreducible] def scrollRun : List WholeEvent :=
  (List.replicate 4 arrayRun).flatten ++ List.replicate 14 (WholeEvent.main .counterTry) ++
    List.replicate 4 (WholeEvent.main .cronTry)

abbrev scrollStart : Whole := wholeStart (Avr.int3Vect Avr.init) [] 0

theorem scrollRun_below : Along wholeStep WholeBelow scrollStart (greetedRun ++ scrollRun) := by
  decide +kernel

theorem scrollRun_idle :
    Throughout wholeStep (fun t => t.avr.state.menu.state = .idle)
      (run wholeStep scrollStart greetedRun) scrollRun := by
  decide +kernel

theorem text_conveyed_greeted :
    let t := run wholeStep scrollStart (greetedRun ++ scrollRun)
    givenFrom .middle t.given ++ t.handle.content.middleInfo = t.arrived ∧
      decodedColumns (Avr.int3Vect Avr.init) t <+: (pixelize 0 (runningText t.given)).2 :=
  text_conveyed greeted_blank scrollRun_below

open Avr in
theorem text_scrolls_twice :
    let t₀ := run wholeStep scrollStart greetedRun
    let t := run wholeStep t₀ scrollRun
    let columns := t₀.avr.state.flush.shiftData.contents ++
      (pixelize 0 (runningText t.given)).2.drop (decodedColumns (int3Vect init) t₀).length
    ∃ dumps, t.dumps = t₀.dumps ++ dumps ∧
      ∀ k shiftData, dumps[k]? = some shiftData → k + 64 ≤ columns.length ∧
        ∀ (stableData : List Byte) (port : Byte),
          left.latched port (dump shiftData stableData 1) =
            dataHeader ++ (windowAt columns k).left.flatMap columnBits ∧
          right.latched port (dump shiftData stableData 1) =
            dataHeader ++ (windowAt columns k).right.flatMap columnBits :=
  text_scrolls greeted_blank scrollRun_below (.inl rfl) scrollRun_idle

end LedServer
