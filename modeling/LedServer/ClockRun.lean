import LedServer.AvrClock
import LedServer.PictureReading

set_option autoImplicit false

/-!
# The clock carries out register transfers

Interrupt by interrupt, `twi.c` and `watch.c` do to the registers of the chip
and to `buffer` what the transfers do.
-/
namespace LedServer.Avr
open AvrRing AvrTwi Machine
open RegisterQueue (Files Transfer)

abbrev ClockFiles := Files Byte Byte Byte (Watch × Option Buf)

section

variable {σ : Type} (chip : RegisterChip σ)

def filesStep : ClockFiles → RegisterQueue.Event Byte Byte Byte → ClockFiles :=
  RegisterQueue.step chip.next received

/-- The clock beside the transfers. -/
structure Both (σ : Type) where
  clock : Clock σ
  files : ClockFiles

def bothStep (b : Both σ) (e : ClockEvent) : Both σ :=
  ⟨clockStep chip b.clock e, run (filesStep chip) b.files (transfers chip b.clock e)⟩

def bothStart (s : σ) : Both σ := ⟨clockStart s, ⟨chip.regs s, (watchZero, none), [], .rest⟩⟩

/-- The queue takes the record of every call that returns 1. -/
def ClockSound (c : Clock σ) : ClockEvent → Prop
  | .call request => CallSound { TwiRun.start with twi := c.twi } (.call request)
  | _ => True

instance (c : Clock σ) : (e : ClockEvent) → Decidable (ClockSound c e)
  | .call request =>
    inferInstanceAs (Decidable (CallSound { TwiRun.start with twi := c.twi } (.call request)))
  | .twiTry | .vect _ | .tick => .isTrue trivial

/-! ### Where the chip is -/

/-- Behind `k` interrupts of a request. -/
def ChipAt (s : σ) : TwiRequest → ℕ → Prop
  | _, 0 => chip.phase s = .started
  | _, 1 => chip.phase s = .addressed
  | .write _ _ reg _, k + 2 => chip.phase s = .storing ∧ chip.pointer s = chip.next^[k] reg
  | .read _ _ reg _, 2 => chip.phase s = .storing ∧ chip.pointer s = reg
  | .read _ _ reg _, 3 => chip.phase s = .started ∧ chip.pointer s = reg
  | .read _ _ reg _, k + 4 => chip.phase s = .sending ∧ chip.pointer s = chip.next^[k] reg

/-- What is left of a request then; the byte that is out is not received yet. -/
def underTransfer (request : TwiRequest) (seen : List (Byte × Byte)) (out : Byte) :
    Transfer Byte Byte Byte :=
  match request with
  | .write _ _ reg data =>
    .writing (chip.next^[seen.length - 2] reg) (data.drop (seen.length - 2))
  | .read _ tag reg len =>
    .reading tag ((seen.map Prod.snd ++ [out]).drop 5) (chip.next^[seen.length - 4] reg)
      (len.toNat - (seen.length - 4))

/-- The phases whose interrupt moves a value, if there is one. -/
def valuePhases (request : TwiRequest) (k : ℕ) : Prop :=
  match request with
  | .write .. => 2 ≤ k
  | .read .. => 4 ≤ k

/-- The chip follows an interrupt, and moves what the transfer moves. -/
structure Tracks (request : TwiRequest) (seen seen' : List (Byte × Byte)) (s s' : σ)
    (f : ClockFiles) : Prop where
  chipAt : ChipAt chip s' request seen'.length
  still : ¬ valuePhases request seen.length → chip.regs s' = chip.regs s ∧
    underTransfer chip request seen' (chip.out s') = underTransfer chip request seen (chip.out s)
  moved : valuePhases request seen.length → (f.byte chip.next).regs = chip.regs s' ∧
    (f.byte chip.next).current = underTransfer chip request seen' (chip.out s')

variable {chip}

/-- Before the values nothing of the request is done. -/
theorem underTransfer_opening (request : TwiRequest) {seen : List (Byte × Byte)}
    (h : ¬ valuePhases request seen.length) (twsr out out' : Byte) :
    underTransfer chip request (seen ++ [(twsr, out)]) out' =
      underTransfer chip request seen out := by
  have hlength : (seen ++ [(twsr, out)]).length = seen.length + 1 := by simp
  cases request with
  | write id tag reg data =>
    have hlt : ¬ 2 ≤ seen.length := h
    have hnone : seen.length - 2 = 0 ∧ seen.length + 1 - 2 = 0 := by omega
    simp only [underTransfer, hlength, hnone]
  | read id tag reg len =>
    have hlt : ¬ 4 ≤ seen.length := h
    have hbefore : (seen.map Prod.snd ++ [out]).drop 5 = [] := by
      rw [List.drop_eq_nil_iff]
      simp
      omega
    have hafter : ((seen ++ [(twsr, out)]).map Prod.snd ++ [out']).drop 5 = [] := by
      rw [List.drop_eq_nil_iff]
      simp
      omega
    have hnone : seen.length - 4 = 0 ∧ seen.length + 1 - 4 = 0 := by omega
    simp only [underTransfer, hbefore, hafter, hlength, hnone]

section Tracks

variable {request : TwiRequest} {seen : List (Byte × Byte)} {s s' : σ} {f : ClockFiles}
  {twsr : Byte}

theorem Tracks.opens (h : ¬ valuePhases request seen.length)
    (hat : ChipAt chip s' request (seen.length + 1)) (hregs : chip.regs s' = chip.regs s) :
    Tracks chip request seen (seen ++ [(twsr, chip.out s)]) s s' f := by
  refine ⟨?_, fun _ => ⟨hregs, underTransfer_opening request h _ _ _⟩,
    fun hmoves => absurd hmoves h⟩
  rw [List.length_append]
  exact hat

theorem Tracks.moves (h : valuePhases request seen.length)
    (hat : ChipAt chip s' request (seen.length + 1))
    (hregs : (f.byte chip.next).regs = chip.regs s')
    (hcurrent : (f.byte chip.next).current =
      underTransfer chip request (seen ++ [(twsr, chip.out s)]) (chip.out s')) :
    Tracks chip request seen (seen ++ [(twsr, chip.out s)]) s s' f := by
  refine ⟨?_, fun hstill => absurd h hstill, fun _ => ⟨hregs, hcurrent⟩⟩
  rw [List.length_append]
  exact hat

end Tracks

theorem tracks_write {s : σ} {id tag reg : Byte} {data : List Byte}
    {seen : List (Byte × Byte)} (h : ChipAt chip s (.write id tag reg data) seen.length)
    (more : seen.length + 1 < 3 + data.length) {event : BusEvent}
    (hevent : ((TwiRequest.write id tag reg data).traffic rtcAddress)[seen.length + 1]? =
      some event)
    {f : ClockFiles} (hregs : f.regs = chip.regs s)
    (hcurrent : f.current = underTransfer chip (.write id tag reg data) seen (chip.out s))
    (twsr : Byte) :
    Tracks chip (.write id tag reg data) seen (seen ++ [(twsr, chip.out s)]) s
      (chip.step s event) f := by
  have hlength : (seen ++ [(twsr, chip.out s)]).length = seen.length + 1 := by simp
  have hopens : ∀ {s'}, seen.length < 2 →
      ChipAt chip s' (.write id tag reg data) (seen.length + 1) → chip.regs s' = chip.regs s →
      Tracks chip (.write id tag reg data) seen (seen ++ [(twsr, chip.out s)]) s s' f :=
    fun hlt hat hkept => .opens (Nat.not_le.mpr hlt) hat hkept
  generalize hk : seen.length = k at h more hevent hlength hopens
  match k with
  | 0 =>
    obtain rfl : BusEvent.write (rtcAddress <<< 1) = event := Option.some.inj hevent
    obtain ⟨hphase, hkept⟩ := chip.addressed s h
    exact hopens (by decide) hphase hkept
  | 1 =>
    obtain rfl : BusEvent.write reg = event := Option.some.inj hevent
    obtain ⟨hphase, hpointer, hkept⟩ := chip.points s reg h
    exact hopens (by decide) ⟨hphase, hpointer⟩ hkept
  | k + 2 =>
    have hk' : k < data.length := by omega
    have hdata : data.drop k = data[k] :: data.drop (k + 1) := List.drop_eq_getElem_cons hk'
    have hnext : ((TwiRequest.write id tag reg data).traffic rtcAddress)[k + 2 + 1]? =
        some (.write data[k]) := by
      simp [TwiRequest.traffic, hk']
    obtain rfl : BusEvent.write data[k] = event := Option.some.inj (hnext.symm.trans hevent)
    obtain ⟨hstoring, hat⟩ := h
    obtain ⟨hphase, hpointer, hstored⟩ := chip.stores s data[k] hstoring
    have hcurrent' : f.current = .writing (chip.next^[k] reg) (data[k] :: data.drop (k + 1)) := by
      rw [hcurrent, underTransfer, hk, Nat.add_sub_cancel, hdata]
    have hstep : k + 2 + 1 - 2 = k + 1 := by omega
    refine .moves (hk ▸ Nat.le_add_left 2 k) ?_ ?_ ?_
    · rw [hk]
      refine ⟨hphase, ?_⟩
      rw [hpointer, hat, Function.iterate_succ_apply']
    · simp only [Files.byte, hcurrent', hstored, hat, hregs]
    · simp only [Files.byte, hcurrent', underTransfer, hlength, hstep,
        Function.iterate_succ_apply']

theorem tracks_read {s : σ} {id tag reg len : Byte}
    {seen : List (Byte × Byte)} (h : ChipAt chip s (.read id tag reg len) seen.length)
    (more : seen.length + 1 < 5 + len.toNat) {event : BusEvent}
    (hevent : ((TwiRequest.read id tag reg len).traffic rtcAddress)[seen.length + 1]? =
      some event)
    {f : ClockFiles} (hregs : f.regs = chip.regs s)
    (hcurrent : f.current = underTransfer chip (.read id tag reg len) seen (chip.out s))
    (twsr : Byte) :
    Tracks chip (.read id tag reg len) seen (seen ++ [(twsr, chip.out s)]) s
      (chip.step s event) f := by
  have hlength : (seen ++ [(twsr, chip.out s)]).length = seen.length + 1 := by simp
  have hopens : ∀ {s'}, seen.length < 4 →
      ChipAt chip s' (.read id tag reg len) (seen.length + 1) → chip.regs s' = chip.regs s →
      Tracks chip (.read id tag reg len) seen (seen ++ [(twsr, chip.out s)]) s s' f :=
    fun hlt hat hkept => .opens (Nat.not_le.mpr hlt) hat hkept
  generalize hk : seen.length = k at h more hevent hlength hopens
  match k with
  | 0 =>
    obtain rfl : BusEvent.write (rtcAddress <<< 1) = event := Option.some.inj hevent
    obtain ⟨hphase, hkept⟩ := chip.addressed s h
    exact hopens (by decide) hphase hkept
  | 1 =>
    obtain rfl : BusEvent.write reg = event := Option.some.inj hevent
    obtain ⟨hphase, hpointer, hkept⟩ := chip.points s reg h
    exact hopens (by decide) ⟨hphase, hpointer⟩ hkept
  | 2 =>
    obtain rfl : BusEvent.start = event := Option.some.inj hevent
    obtain ⟨hphase, hpointer, hkept⟩ := chip.start s
    exact hopens (by decide) ⟨hphase, hpointer.trans h.2⟩ hkept
  | 3 =>
    obtain rfl : BusEvent.write (rtcAddress <<< 1 ||| 1) = event := Option.some.inj hevent
    obtain ⟨hphase, hpointer, hkept⟩ := chip.sends s h.1
    exact hopens (by decide) ⟨hphase, hpointer.trans h.2⟩ hkept
  | k + 4 =>
    have hk' : k < len.toNat := by omega
    have hnext : ((TwiRequest.read id tag reg len).traffic rtcAddress)[k + 4 + 1]? =
        some .read := by
      simp [TwiRequest.traffic, hk']
    obtain rfl : BusEvent.read = event := Option.some.inj (hnext.symm.trans hevent)
    obtain ⟨hsending, hat⟩ := h
    obtain ⟨hphase, hpointer, hkept, hout⟩ := chip.fetches s hsending
    have hleft : len.toNat - k = len.toNat - (k + 1) + 1 := by omega
    have hgot : ∀ out' : Byte,
        ((seen ++ [(twsr, chip.out s)]).map Prod.snd ++ [out']).drop 5 =
          (seen.map Prod.snd ++ [chip.out s]).drop 5 ++ [out'] := by
      intro out'
      rw [List.map_append, List.map_singleton, List.drop_append_of_le_length]
      simp
      omega
    have hcurrent' : f.current = .reading tag ((seen.map Prod.snd ++ [chip.out s]).drop 5)
        (chip.next^[k] reg) (len.toNat - (k + 1) + 1) := by
      rw [hcurrent, underTransfer, hk, Nat.add_sub_cancel, hleft]
    have hstep : k + 4 + 1 - 4 = k + 1 := by omega
    refine .moves (hk ▸ Nat.le_add_left 4 k) ?_ ?_ ?_
    · rw [hk]
      refine ⟨hphase, ?_⟩
      rw [hpointer, hat, Function.iterate_succ_apply']
    · simp only [Files.byte, hcurrent', hkept, hregs]
    · simp only [Files.byte, hcurrent', hout, hat, hregs, underTransfer, hlength, hgot, hstep,
        Function.iterate_succ_apply']

/-- Whatever the request. -/
theorem tracks {s : σ} {request : TwiRequest} {seen : List (Byte × Byte)}
    (h : ChipAt chip s request seen.length) (more : seen.length + 1 < request.interrupts)
    {event : BusEvent} (hevent : (request.traffic rtcAddress)[seen.length + 1]? = some event)
    {f : ClockFiles} (hregs : f.regs = chip.regs s)
    (hcurrent : f.current = underTransfer chip request seen (chip.out s)) (twsr : Byte) :
    Tracks chip request seen (seen ++ [(twsr, chip.out s)]) s (chip.step s event) f := by
  cases request with
  | write id tag reg data => exact tracks_write h more hevent hregs hcurrent _
  | read id tag reg len => exact tracks_read h more hevent hregs hcurrent twsr

/-! ### The invariant of a run -/

variable (chip)

/-- No transaction, and the callback of the last one has been called. -/
structure Resting (b : Both σ) : Prop where
  mode : b.clock.twi.mode = .idle
  action : b.clock.twi.mAction = .idle
  status : b.clock.twi.status = .success
  current : b.files.current = .rest

/-- The transaction of `s` is under way. -/
structure Going (b : Both σ) (s : Twi) (r : TwiLog) : Prop where
  log : r.twi = b.clock.twi
  taken : Taken s
  status : s.status = .success
  address : ownAddress s = rtcAddress
  underway : Underway s r
  chipAt : ChipAt chip b.clock.chip (loaded s) r.seen.length
  current : b.files.current = underTransfer chip (loaded s) r.seen (chip.out b.clock.chip)

theorem underTransfer_ne (request : TwiRequest) (seen : List (Byte × Byte)) (out : Byte) :
    underTransfer chip request seen out ≠ .rest := by
  cases request <;> exact fun h => nomatch h

variable {chip} in
theorem Going.busy {b : Both σ} {s : Twi} {r : TwiLog} (h : Going chip b s r) :
    b.files.current ≠ .rest := by
  rw [h.current]
  exact underTransfer_ne chip _ _ _

/-- All values have been moved and received. -/
def Received (current : Transfer Byte Byte Byte) (request : TwiRequest)
    (seen : List (Byte × Byte)) : Prop :=
  match request with
  | .write .. => ∃ reg, current = .writing reg []
  | .read _ tag _ len => ∃ reg, current = .reading tag (request.received seen) reg 0 ∧
      (request.received seen).length = len.toNat

/-- The transaction of `s` has ended, and `twi_try` is about to call the callback. -/
structure Gone (b : Both σ) (s : Twi) (r : TwiLog) : Prop where
  log : r.twi = b.clock.twi
  taken : Taken s
  status : s.status = .success
  ended : Ended s r
  busy : b.files.current ≠ .rest
  current : (loaded s).Passed r.seen → Received b.files.current (loaded s) r.seen

inductive ClockStage (b : Both σ) : Prop
  | resting (h : Resting b)
  | going (s : Twi) (r : TwiLog) (h : Going chip b s r)
  | gone (s : Twi) (r : TwiLog) (h : Gone b s r)

/-- The requests in the queue. -/
def Queued (t : Twi) (pending : List TwiRequest) : Prop :=
  ∃ r : TwiRun, r.twi = t ∧ Holds r pending

structure ClockKept (b : Both σ) : Prop where
  regs : b.files.regs = chip.regs b.clock.chip
  shown : b.files.sink = (b.clock.watch, b.clock.picture)
  picture : ∀ buf, b.clock.picture = some buf → buf = watchRender b.clock.watch
  address : b.clock.twi.mAddress = [rtcAddress]
  queue : ∃ pending, Queued b.clock.twi pending ∧
    b.files.pending = pending.map registerRequest
  stage : ClockStage chip b

theorem bothStart_kept (s : σ) : ClockKept chip (bothStart chip s) where
  regs := rfl
  shown := rfl
  picture _ h := nomatch h
  address := rfl
  queue := by
    obtain ⟨valid, records, split, sound, current, reported, data⟩ := start_holds
    exact ⟨[], ⟨.slaves [rtcAddress], rfl, valid, records, split, sound, current, reported, data⟩,
      rfl⟩
  stage := .resting ⟨rfl, rfl, rfl, rfl⟩

/-! ### Steps of the queue -/

variable {chip}

theorem queued_call {t : Twi} {pending : List TwiRequest} (h : Queued t pending)
    {request : TwiRequest} (hc : CallSound { TwiRun.start with twi := t } (.call request)) :
    Queued (twiCall t request).1
      (pending ++ if (twiCall t request).2 then [request] else []) := by
  obtain ⟨r, rfl, hr⟩ := h
  obtain ⟨pending', hstep⟩ := call_holds hr request hc
  have hsplit : r.accepted ++ (if (twiCall r.twi request).2 then [request] else []) =
      r.dequeued ++ pending' := hstep.split
  rw [hr.split, List.append_assoc] at hsplit
  rw [List.append_cancel_left hsplit]
  exact ⟨r.step (.call request), rfl, hstep⟩

theorem twiTry_address (t : Twi) : (twiTry t).1.mAddress = t.mAddress := by
  have hset : (actionSet t).mAddress = t.mAddress := by
    unfold actionSet
    split
    · rfl
    · dsimp only
      split_ifs <;> rfl
  unfold twiTry
  split_ifs
  · rfl
  · rfl
  · exact hset
  · rfl

theorem queued_dequeue {t : Twi} {pending : List TwiRequest} (h : Queued t pending)
    (hd : Dequeues t) :
    ∃ request rest, pending = request :: rest ∧ Queued (twiTry t).1 rest ∧
      loaded (twiTry t).1 = request ∧ Takes t ∧ ownAddress (twiTry t).1 = t.mAddress.getD 0 0 := by
  obtain ⟨r, rfl, hr⟩ := h
  obtain ⟨request, rest, rfl, hrest, -⟩ := dequeue_holds hr hd
  have hs := hr.sound request List.mem_cons_self
  have hcontents : r.twi.queue.contents = request.record ++ rest.flatMap TwiRequest.record := by
    rw [hr.records, List.flatMap_cons]
  obtain ⟨hload, -, -, haction, hid, -⟩ := actionSet_loaded hr.valid hr.data hs hcontents
  have htry := congrArg Prod.fst (twiTry_dequeues hd)
  have hloaded : loaded (twiTry r.twi).1 = request := by
    rw [htry]
    exact hload
  have haction' : (twiTry r.twi).1.mAction ≠ .idle := by
    rw [htry]
    exact haction
  have hid' : (twiTry r.twi).1.mId = 0 := by
    have hzero : ∀ id : Byte, id < twiIdSize → id = 0 := by decide
    rw [htry]
    exact hzero _ (hid ▸ hs.id_lt)
  have hpos : 1 ≤ (twiTry r.twi).1.mMaxIndex.toNat := by
    have hlen := hs.len_pos
    rw [← hloaded] at hlen
    unfold loaded at hlen
    split_ifs at hlen
    · rw [TwiRequest.len, List.length_take] at hlen
      omega
    · exact hlen
  refine ⟨request, rest, rfl, ⟨r.step .twiTry, rfl, hrest⟩, hloaded, ⟨hd, haction', hpos⟩, ?_⟩
  rw [ownAddress, hid', twiTry_address]
  rfl

theorem queued_try {t : Twi} {pending : List TwiRequest} (h : Queued t pending)
    (hd : ¬ Dequeues t) : Queued (twiTry t).1 pending := by
  obtain ⟨r, rfl, hr⟩ := h
  exact ⟨r.step .twiTry, rfl, try_keeps hr hd⟩

theorem queued_vect {t : Twi} {pending : List TwiRequest} (h : Queued t pending)
    (twsr received : Byte) : Queued (twiVect t twsr received) pending := by
  obtain ⟨r, rfl, hr⟩ := h
  exact ⟨r.step (.vect twsr received), rfl, vect_holds hr twsr received⟩

theorem Queued.data {t : Twi} {pending : List TwiRequest} (h : Queued t pending) :
    t.mData.length = maxLen := by
  obtain ⟨r, rfl, hr⟩ := h
  exact hr.data

theorem clockStep_try (c : Clock σ) :
    clockStep chip c .twiTry =
      { c with
        twi := (twiTry c.twi).1
        chip := if Dequeues c.twi then chip.step c.chip (busEvent (twiTry c.twi).1) else c.chip
      }.callback (twiTry c.twi).2 := rfl

theorem opened_underTransfer (request : TwiRequest) (out : Byte) :
    (registerRequest request).opened = underTransfer chip request [] out := by
  cases request <;> rfl

/-- The transaction of what is taken off the queue. -/
theorem ClockKept.begin {b : Both σ} (h : ClockKept chip b) (hrest : Resting b)
    (hd : Dequeues b.clock.twi) : ClockKept chip (bothStep chip b .twiTry) := by
  obtain ⟨pending, hqueue, hpending⟩ := h.queue
  obtain ⟨request, rest, rfl, hqueued, hload, htakes, haddress⟩ := queued_dequeue hqueue hd
  obtain ⟨htaken, hunder⟩ := begin_underway htakes hqueue.data
  have htry := twiTry_dequeues hd
  have hnone : (twiTry b.clock.twi).2 = none := congrArg Prod.snd htry
  have hevent : busEvent (twiTry b.clock.twi).1 = .start := by
    rw [htry]
    rfl
  have hclock : clockStep chip b.clock .twiTry =
      { b.clock with
        twi := (twiTry b.clock.twi).1
        chip := chip.step b.clock.chip .start } := by
    rw [clockStep_try, hnone, if_pos hd, hevent]
    rfl
  have hfiles : (bothStep chip b .twiTry).files =
      { b.files with
        pending := rest.map registerRequest
        current := (registerRequest request).opened } := by
    unfold bothStep transfers
    rw [if_pos hd]
    unfold filesStep RegisterQueue.step
    simp only [run_cons, run_nil, hpending, List.map_cons]
  have hstep : bothStep chip b .twiTry =
    ⟨clockStep chip b.clock .twiTry, (bothStep chip b .twiTry).files⟩ := rfl
  obtain ⟨hphase, -, hregs⟩ := chip.start b.clock.chip
  rw [hstep, hfiles, hclock]
  refine ⟨h.regs.trans hregs.symm, h.shown, h.picture, ?_, ⟨rest, hqueued, rfl⟩, .going _ _
    ⟨rfl, htaken, ?_, ?_, hunder, hphase, ?_⟩⟩
  · rw [← h.address]
    exact twiTry_address _
  · rw [htry]
    exact (actionSet_cases b.clock.twi).1.trans hrest.status
  · rw [haddress, h.address]
    rfl
  · rw [hload]
    exact opened_underTransfer request _

/-! ### Callbacks -/

/-- Only the first byte counts. -/
theorem readCallback_received {w : Watch} {picture : Option Buf} {tag len : Byte} {got : List Byte}
    (hlen : got.length = len.toNat) (hpos : 1 ≤ len.toNat) (more : List Byte) :
    received (w, picture) tag got =
      ((readCallback w tag .success len (got ++ more)).1,
        (readCallback w tag .success len (got ++ more)).2.or picture) := by
  have hfirst : (got ++ more).getD 0 0 = got.getD 0 0 := by
    rw [List.getD_append _ _ _ _ (by omega)]
  have hof : BitVec.ofNat 8 got.length = len := by
    rw [hlen]
    simp
  unfold received readCallback
  rw [hfirst, hof]

theorem Clock.callback_picture {c : Clock σ}
    (h : ∀ buf, c.picture = some buf → buf = watchRender c.watch) (report : Option TwiReport) :
    ∀ buf, (c.callback report).picture = some buf →
      buf = watchRender (c.callback report).watch := by
  intro buf hbuf
  unfold callback at hbuf ⊢
  rcases watchCallback_cases c.watch report with hno | ⟨w', hyes⟩
  · rw [hno] at hbuf ⊢
    exact h buf hbuf
  · rw [hyes] at hbuf ⊢
    exact (Option.some.inj hbuf).symm

theorem Clock.callback_failed (c : Clock σ) {report : TwiReport} (h : report.status ≠ .success) :
    c.callback (some report) = c := by
  have hno : watchCallback c.watch (some report) = (c.watch, none) := by
    cases report with
    | write id tag status => rfl
    | read id tag status len value => exact if_pos (.inl h)
  unfold callback
  rw [hno]
  rfl

@[simp] theorem Clock.callback_twi (c : Clock σ) (report : Option TwiReport) :
    (c.callback report).twi = c.twi ∧ (c.callback report).chip = c.chip := ⟨rfl, rfl⟩

theorem finish_false (f : ClockFiles) :
    f.finish received false = { f with current := .rest } := by
  unfold Files.finish
  split
  · contradiction
  · rfl

/-- The watch gets what the transfer hands on, if the transaction was a success. -/
theorem Gone.callback {b : Both σ} {s : Twi} {r : TwiLog} (h : Gone b s r) :
    let report := twiReport b.clock.twi
    let files := b.files.finish received (report.status = .success)
    files.regs = b.files.regs ∧ files.pending = b.files.pending ∧ files.current = .rest ∧
      (b.files.sink = (b.clock.watch, b.clock.picture) →
        files.sink = ((b.clock.callback (some report)).watch,
          (b.clock.callback (some report)).picture)) := by
  have hreport := h.ended.twiReport
  rw [h.log] at hreport
  have hsuccess := TwiRequest.report_success (loaded s) s.status s.mData r.seen
  intro report files
  have hpassed : report.status = .success ↔ (loaded s).Passed r.seen := by
    rw [show report = _ from hreport, hsuccess]
    exact and_iff_right h.status
  by_cases hp : (loaded s).Passed r.seen
  · have hok : decide (report.status = .success) = true := decide_eq_true (hpassed.mpr hp)
    have hfiles : files = b.files.finish received true := by
      change b.files.finish received (decide (report.status = .success)) = _
      rw [hok]
    have hcurrent := h.current hp
    have hlen := h.taken.len
    have hpos := h.taken.pos
    have hrecorded : (loaded s).recorded s.status r.seen = .success := by
      rw [TwiRequest.recorded, if_pos hp, h.status]
    rw [hfiles, show report = _ from hreport]
    unfold TwiRequest.report
    rw [hrecorded]
    cases hload : loaded s with
    | write id tag reg data =>
      rw [hload] at hcurrent
      obtain ⟨reg', hcurrent⟩ := hcurrent
      have hfinish : b.files.finish received true = { b.files with current := .rest } := by
        unfold Files.finish
        rw [hcurrent]
      rw [hfinish]
      exact ⟨rfl, rfl, rfl, fun hsink => hsink⟩
    | read id tag reg len =>
      rw [hload] at hcurrent hlen
      obtain ⟨reg', hcurrent, hlength⟩ := hcurrent
      have hfinish : b.files.finish received true =
          { b.files with
            sink := received b.files.sink tag ((TwiRequest.read id tag reg len).received r.seen)
            current := .rest } := by
        unfold Files.finish
        rw [hcurrent]
      have hone : 1 ≤ len.toNat := by
        rw [show len.toNat = _ from hlen]
        exact hpos
      rw [hfinish]
      refine ⟨rfl, rfl, rfl, fun hsink => ?_⟩
      rw [hsink]
      exact readCallback_received hlength hone _
  · have hok : decide (report.status = .success) = false :=
      decide_eq_false fun hstatus => hp (hpassed.mp hstatus)
    have hfiles : files = { b.files with current := .rest } := by
      change b.files.finish received (decide (report.status = .success)) = _
      rw [hok, finish_false]
    rw [hfiles]
    refine ⟨rfl, rfl, rfl, fun hsink => hsink.trans ?_⟩
    rw [b.clock.callback_failed fun hstatus => hp (hpassed.mp hstatus)]

theorem ClockKept.report {b : Both σ} (h : ClockKept chip b) {s : Twi} {r : TwiLog}
    (hgone : Gone b s r) : ClockKept chip (bothStep chip b .twiTry) := by
  obtain ⟨pending, hqueue, hpending⟩ := h.queue
  have hmode : b.clock.twi.mode = .idle := by
    rw [← hgone.log]
    exact hgone.ended.mode
  have haction : b.clock.twi.mAction ≠ .idle := by
    rw [← hgone.log, hgone.ended.same.action]
    exact hgone.taken.action
  have hd : ¬ Dequeues b.clock.twi := fun hd => haction hd.2.1
  have htry : twiTry b.clock.twi = (actionReset b.clock.twi, some (twiReport b.clock.twi)) := by
    rw [twiTry, if_neg (not_not.mpr hmode), if_pos haction]
  have hqueued := queued_try hqueue hd
  have haddress := twiTry_address b.clock.twi
  obtain ⟨hregs, hfpending, hcurrent, hsink⟩ := hgone.callback
  have hclock : clockStep chip b.clock .twiTry =
      { b.clock with twi := actionReset b.clock.twi }.callback (some (twiReport b.clock.twi)) := by
    rw [clockStep_try, htry, if_neg hd]
  have hfiles : (bothStep chip b .twiTry).files =
      b.files.finish received ((twiReport b.clock.twi).status = .success) := by
    unfold bothStep transfers
    rw [if_neg hd, htry]
    rfl
  have hstep : bothStep chip b .twiTry =
    ⟨clockStep chip b.clock .twiTry, (bothStep chip b .twiTry).files⟩ := rfl
  have hwatch : { b.clock with twi := actionReset b.clock.twi }.callback
      (some (twiReport b.clock.twi)) =
        { b.clock.callback (some (twiReport b.clock.twi)) with
          twi := actionReset b.clock.twi } := rfl
  obtain ⟨htwi, hchip⟩ := Clock.callback_twi { b.clock with twi := actionReset b.clock.twi }
    (some (twiReport b.clock.twi))
  rw [htry] at hqueued haddress
  rw [hstep, hfiles, hclock]
  refine ⟨?_, ?_, ?_, ?_, ⟨pending, ?_, ?_⟩, .resting ⟨?_, ?_, ?_, hcurrent⟩⟩
  · rw [hregs, hchip]
    exact h.regs
  · rw [hwatch]
    exact hsink h.shown
  · exact Clock.callback_picture (c := { b.clock with twi := actionReset b.clock.twi }) h.picture _
  · rw [htwi]
    exact haddress.trans h.address
  · rw [htwi]
    exact hqueued
  · rw [hfpending]
    exact hpending
  · rw [htwi]
    exact hmode
  · rw [htwi]
    rfl
  · rw [htwi]
    rfl

/-- There is nothing to do for `twi_try`. -/
theorem bothStep_idle {b : Both σ} (hd : ¬ Dequeues b.clock.twi)
    (htry : twiTry b.clock.twi = (b.clock.twi, none)) : bothStep chip b .twiTry = b := by
  unfold bothStep transfers
  rw [clockStep_try, htry, if_neg hd, if_neg hd]
  rfl

theorem ClockKept.try {b : Both σ} (h : ClockKept chip b) :
    ClockKept chip (bothStep chip b .twiTry) := by
  rcases h.stage with hrest | ⟨s, r, hgoing⟩ | ⟨s, r, hgone⟩
  · by_cases hd : Dequeues b.clock.twi
    · exact h.begin hrest hd
    · have hsize : ¬ (bufferSize b.clock.twi.queue).toNat > 0 := fun hsize =>
        hd ⟨hrest.mode, hrest.action, hsize⟩
      have htry : twiTry b.clock.twi = (b.clock.twi, none) := by
        rw [twiTry, if_neg (not_not.mpr hrest.mode), if_neg (not_not.mpr hrest.action),
          if_neg hsize]
      rw [bothStep_idle hd htry]
      exact h
  · have hbusy : b.clock.twi.mode ≠ .idle := by
      rw [← hgoing.log]
      exact hgoing.underway.busy
    have hd : ¬ Dequeues b.clock.twi := fun hd => hbusy hd.1
    rw [bothStep_idle hd (by rw [twiTry, if_pos hbusy])]
    exact h
  · exact h.report hgone

theorem ClockKept.call {b : Both σ} (h : ClockKept chip b) {request : TwiRequest}
    (hc : ClockSound b.clock (.call request)) :
    ClockKept chip (bothStep chip b (.call request)) := by
  obtain ⟨pending, hqueue, hpending⟩ := h.queue
  have hqueued := queued_call hqueue hc
  have hframe := twiCall_frame b.clock.twi request
  have hfiles : (bothStep chip b (.call request)).files =
      { b.files with
        pending := b.files.pending ++
          (if (twiCall b.clock.twi request).2 then [request] else []).map registerRequest } := by
    change run (filesStep chip) b.files (if (twiCall b.clock.twi request).2 then
      [.request (registerRequest request)] else []) = _
    cases (twiCall b.clock.twi request).2 with
    | false => simp
    | true => rfl
  have hclock : clockStep chip b.clock (.call request) =
      { b.clock with
        twi := { b.clock.twi with queue := (twiCall b.clock.twi request).1.queue } } := by
    rw [← hframe]
    rfl
  have hstep : bothStep chip b (.call request) =
    ⟨clockStep chip b.clock (.call request), (bothStep chip b (.call request)).files⟩ := rfl
  rw [hframe] at hqueued
  rw [hstep, hfiles, hclock]
  refine ⟨h.regs, h.shown, h.picture, h.address, ⟨_, hqueued, ?_⟩, ?_⟩
  · rw [hpending, List.map_append]
  · rcases h.stage with hrest | ⟨s, r, hgoing⟩ | ⟨s, r, hgone⟩
    · exact .resting ⟨hrest.mode, hrest.action, hrest.status, hrest.current⟩
    · have hunder := hgoing.underway
      refine .going s
        { r with twi := { r.twi with queue := (twiCall b.clock.twi request).1.queue } }
        ⟨?_, hgoing.taken, hgoing.status, hgoing.address, ?_, hgoing.chipAt, hgoing.current⟩
      · rw [hgoing.log]
      · exact ⟨hunder.same.queue _, hunder.mode, hunder.more, hunder.passed, hunder.index,
          hunder.bus, hunder.accesses, hunder.status, hunder.data, hunder.reports⟩
    · have hended := hgone.ended
      refine .gone s { r with twi := { r.twi with queue := (twiCall b.clock.twi request).1.queue } }
        ⟨?_, hgone.taken, hgone.status, ?_, hgone.busy, hgone.current⟩
      · rw [hgone.log]
      · exact ⟨hended.toRecorded.main _ _, hended.same.queue _, hended.mode, hended.status,
          hended.data, hended.reports⟩

/-! ### Interrupts -/

theorem valuePhases_iff (request : TwiRequest) (k : ℕ) :
    (request.phase k = .writeReg ∨ request.phase k = .writeValue ∨
      request.phase k = .readRestartSlave ∨ request.phase k = .readValue) ↔
      valuePhases request k := by
  cases request with
  | write =>
    rcases k with _ | _ | _ | k <;>
      simp [TwiRequest.phase, TwiRequest.opening, TwiRequest.valueMode, valuePhases]
  | read =>
    rcases k with _ | _ | _ | _ | _ | k <;>
      simp [TwiRequest.phase, TwiRequest.opening, TwiRequest.valueMode, valuePhases]

/-- At the last interrupt all has been moved. -/
theorem underTransfer_whole {request : TwiRequest} {seen : List (Byte × Byte)} {out : Byte}
    (hend : seen.length + 1 = request.interrupts) {twsr : Byte}
    (hpassed : request.Passed (seen ++ [(twsr, out)])) :
    Received (underTransfer chip request seen out) request (seen ++ [(twsr, out)]) := by
  cases request with
  | write id tag reg data =>
    have hlength : seen.length - 2 = data.length := by
      change seen.length + 1 = 3 + data.length at hend
      omega
    exact ⟨_, by rw [underTransfer, hlength, List.drop_length]⟩
  | read id tag reg len =>
    have hlength : seen.length - 4 = len.toNat := by
      change seen.length + 1 = 5 + len.toNat at hend
      omega
    have hgot : (seen.map Prod.snd ++ [out]).drop 5 =
        (TwiRequest.read id tag reg len).received (seen ++ [(twsr, out)]) := by
      rw [TwiRequest.received_passed hpassed, List.map_drop, List.map_append, List.map_singleton]
    refine ⟨_, by rw [underTransfer, hlength, Nat.sub_self, hgot], ?_⟩
    rw [← hgot, List.length_drop, List.length_append, List.length_map, List.length_singleton]
    omega

theorem clockStep_vect {c : Clock σ} (hbusy : c.twi.mode ≠ .idle) (twsr : Byte) :
    clockStep chip c (.vect twsr) =
      { c with
        twi := twiVect c.twi twsr (chip.out c.chip)
        chip := chip.step c.chip (busEvent (twiVect c.twi twsr (chip.out c.chip))) } := by
  unfold clockStep
  exact if_neg hbusy

theorem bothStep_vect (b : Both σ) (twsr : Byte) :
    (bothStep chip b (.vect twsr)).files = run (filesStep chip) b.files
      (if b.clock.twi.mode ≠ .idle ∧
          Moves b.clock.twi (twiVect b.clock.twi twsr (chip.out b.clock.chip))
        then [.byte] else []) := rfl

/-- A transaction ends with a stop, which moves nothing. -/
theorem ClockKept.ends {b : Both σ} (h : ClockKept chip b) {twsr : Byte}
    (hbusy : b.clock.twi.mode ≠ .idle)
    (hidle : (twiVect b.clock.twi twsr (chip.out b.clock.chip)).mode = .idle)
    (hstop : busEvent (twiVect b.clock.twi twsr (chip.out b.clock.chip)) = .stop)
    {s : Twi} {r : TwiLog}
    (hgone : Gone
      ⟨{ b.clock with twi := twiVect b.clock.twi twsr (chip.out b.clock.chip) }, b.files⟩ s r) :
    ClockKept chip (bothStep chip b (.vect twsr)) := by
  obtain ⟨pending, hqueue, hpending⟩ := h.queue
  have hmoves : ¬ (b.clock.twi.mode ≠ .idle ∧
      Moves b.clock.twi (twiVect b.clock.twi twsr (chip.out b.clock.chip))) :=
    fun hmoves => hmoves.2.2 hidle
  have hfiles : (bothStep chip b (.vect twsr)).files = b.files := by
    rw [bothStep_vect, if_neg hmoves]
    rfl
  have hstep : bothStep chip b (.vect twsr) =
    ⟨clockStep chip b.clock (.vect twsr), (bothStep chip b (.vect twsr)).files⟩ := rfl
  have haddress : (twiVect b.clock.twi twsr (chip.out b.clock.chip)).mAddress =
      b.clock.twi.mAddress :=
    (SameRequest.vect ⟨rfl, rfl, rfl, rfl, rfl, rfl⟩ _ _).address
  rw [hstep, hfiles, clockStep_vect hbusy, hstop]
  exact ⟨h.regs.trans (chip.stop b.clock.chip).symm, h.shown, h.picture,
    haddress.trans h.address, ⟨pending, queued_vect hqueue _ _, hpending⟩,
    .gone s r ⟨hgone.log, hgone.taken, hgone.status, hgone.ended, hgone.busy, hgone.current⟩⟩

theorem ClockKept.fails {b : Both σ} (h : ClockKept chip b) {s : Twi} {r : TwiLog}
    (hgoing : Going chip b s r) {twsr : Byte}
    (hc : checkStatusRegister twsr (expectedCode b.clock.twi.mode) = false) :
    ClockKept chip (bothStep chip b (.vect twsr)) := by
  have hunder := hgoing.underway
  have hbusy : b.clock.twi.mode ≠ .idle := by
    rw [← hgoing.log]
    exact hunder.busy
  have hvect := twiVect_failed hbusy hc (chip.out b.clock.chip)
  have hcode : checkStatusRegister twsr (expectedCode r.twi.mode) = false := by
    rw [hgoing.log]
    exact hc
  have hended := hunder.fail hcode (chip.out b.clock.chip)
  have hfailed : ¬ (loaded s).Passed (r.seen ++ [(twsr, chip.out b.clock.chip)]) := by
    rw [TwiRequest.passed_append, ← hunder.mode, hgoing.log, hc]
    rintro ⟨-, hfalse⟩
    cases hfalse
  refine h.ends hbusy (by rw [hvect]) (by rw [hvect]; rfl) (s := s)
    (r := r.step (.vect twsr (chip.out b.clock.chip)))
    ⟨?_, hgoing.taken, hgoing.status, hended, hgoing.busy, fun hp => ?_⟩
  · rw [hunder.step_vect, hgoing.log]
  · rw [hunder.step_vect] at hp
    exact absurd hp hfailed

theorem ClockKept.passes {b : Both σ} (h : ClockKept chip b) {s : Twi} {r : TwiLog}
    (hgoing : Going chip b s r) {twsr : Byte}
    (hc : checkStatusRegister twsr (expectedCode b.clock.twi.mode) = true) :
    ClockKept chip (bothStep chip b (.vect twsr)) := by
  have hunder := hgoing.underway
  have hlog := hgoing.log
  have hbusy : b.clock.twi.mode ≠ .idle := by
    rw [← hlog]
    exact hunder.busy
  have hstepped := hunder.step_vect twsr (chip.out b.clock.chip)
  have hpassed : (loaded s).Passed (r.seen ++ [(twsr, chip.out b.clock.chip)]) := by
    rw [TwiRequest.passed_append, ← hunder.mode, hlog]
    exact ⟨hunder.passed, hc⟩
  have hseen : (r.step (.vect twsr (chip.out b.clock.chip))).seen =
      r.seen ++ [(twsr, chip.out b.clock.chip)] := by rw [hstepped]
  have htwi : (r.step (.vect twsr (chip.out b.clock.chip))).twi =
      twiVect b.clock.twi twsr (chip.out b.clock.chip) := by rw [hstepped, hlog]
  have hbus : (r.step (.vect twsr (chip.out b.clock.chip))).bus =
      ((loaded s).traffic rtcAddress).take (r.seen.length + 1) ++
        [busEvent (twiVect b.clock.twi twsr (chip.out b.clock.chip))] := by
    rw [hstepped, hunder.bus, hgoing.address, hlog]
  have hcode : checkStatusRegister twsr (expectedCode r.twi.mode) = true := by
    rw [hlog]
    exact hc
  rcases hunder.pass hgoing.taken hcode (chip.out b.clock.chip) with hnext | hended
  · have hmore : r.seen.length + 1 < (loaded s).interrupts := by
      have hlt := hnext.more
      rwa [hseen, List.length_append] at hlt
    have hevent : ((loaded s).traffic rtcAddress)[r.seen.length + 1]? =
        some (busEvent (twiVect b.clock.twi twsr (chip.out b.clock.chip))) := by
      have htraffic := hnext.bus
      rw [hbus, hseen, List.length_append, hgoing.address, List.length_singleton,
        List.take_add_one (i := r.seen.length + 1)] at htraffic
      have hone := List.append_cancel_left htraffic
      exact (Option.toList_eq_singleton_iff.mp hone.symm)
    have htracks := tracks hgoing.chipAt hmore hevent h.regs hgoing.current twsr
    have hmode : (twiVect b.clock.twi twsr (chip.out b.clock.chip)).mode ≠ .idle := by
      rw [← htwi]
      exact hnext.busy
    have hmoves : (b.clock.twi.mode ≠ .idle ∧
        Moves b.clock.twi (twiVect b.clock.twi twsr (chip.out b.clock.chip))) ↔
          valuePhases (loaded s) r.seen.length := by
      rw [← valuePhases_iff, ← hunder.mode, hlog]
      exact ⟨fun h => h.2.1, fun h => ⟨hbusy, h, hmode⟩⟩
    obtain ⟨pending, hqueue, hpending⟩ := h.queue
    have haddress : (twiVect b.clock.twi twsr (chip.out b.clock.chip)).mAddress =
        b.clock.twi.mAddress :=
      (SameRequest.vect ⟨rfl, rfl, rfl, rfl, rfl, rfl⟩ _ _).address
    have hstep : bothStep chip b (.vect twsr) =
      ⟨clockStep chip b.clock (.vect twsr), (bothStep chip b (.vect twsr)).files⟩ := rfl
    have hchipAt := htracks.chipAt
    rw [← hseen] at hchipAt
    rw [hstep, bothStep_vect, clockStep_vect hbusy]
    by_cases hvalue : valuePhases (loaded s) r.seen.length
    · obtain ⟨hregs, hcurrent⟩ := htracks.moved hvalue
      have hpend : (b.files.byte chip.next).pending = b.files.pending :=
        (RegisterQueue.complete_byte chip.next received b.files).2
      have hsink : (b.files.byte chip.next).sink = b.files.sink := by
        unfold Files.byte
        split <;> rfl
      rw [← hseen] at hcurrent
      rw [if_pos (hmoves.mpr hvalue)]
      exact ⟨hregs, hsink.trans h.shown, h.picture, haddress.trans h.address,
        ⟨pending, queued_vect hqueue _ _, hpend.trans hpending⟩,
        .going s _ ⟨htwi, hgoing.taken, hgoing.status, hgoing.address, hnext, hchipAt, hcurrent⟩⟩
    · obtain ⟨hregs, hsame⟩ := htracks.still hvalue
      rw [← hseen] at hsame
      rw [if_neg fun hm => hvalue (hmoves.mp hm)]
      exact ⟨h.regs.trans hregs.symm, h.shown, h.picture, haddress.trans h.address,
        ⟨pending, queued_vect hqueue _ _, hpending⟩,
        .going s _ ⟨htwi, hgoing.taken, hgoing.status, hgoing.address, hnext, hchipAt,
          hgoing.current.trans hsame.symm⟩⟩
  · have hlength : r.seen.length + 1 = (loaded s).interrupts := by
      have hwhole := hended.whole (by rw [hseen]; exact hpassed)
      rwa [hseen, List.length_append] at hwhole
    have hstop : busEvent (twiVect b.clock.twi twsr (chip.out b.clock.chip)) = .stop := by
      have htraffic := hended.bus
      rw [hbus, hseen, List.length_append, hgoing.address] at htraffic
      exact List.singleton_inj.mp (List.append_cancel_left htraffic)
    refine h.ends hbusy ?_ hstop (s := s) (r := r.step (.vect twsr (chip.out b.clock.chip)))
      ⟨htwi, hgoing.taken, hgoing.status, hended, hgoing.busy, fun _ => ?_⟩
    · rw [← htwi]
      exact hended.mode
    · rw [hseen, hgoing.current]
      exact underTransfer_whole hlength hpassed

theorem ClockKept.vect {b : Both σ} (h : ClockKept chip b) (twsr : Byte) :
    ClockKept chip (bothStep chip b (.vect twsr)) := by
  by_cases hidle : b.clock.twi.mode = .idle
  · have hclock : clockStep chip b.clock (.vect twsr) = b.clock := if_pos hidle
    have hstep : bothStep chip b (.vect twsr) = b := by
      have hfiles : (bothStep chip b (.vect twsr)).files = _ := bothStep_vect b twsr
      rw [if_neg fun hmoves => hmoves.1 hidle] at hfiles
      unfold bothStep at hfiles ⊢
      rw [hclock, show run (filesStep chip) b.files _ = b.files from hfiles]
    rw [hstep]
    exact h
  · rcases h.stage with hrest | ⟨s, r, hgoing⟩ | ⟨s, r, hgone⟩
    · exact absurd hrest.mode hidle
    · cases hc : checkStatusRegister twsr (expectedCode b.clock.twi.mode) with
      | false => exact h.fails hgoing hc
      | true => exact h.passes hgoing hc
    · rw [← hgone.log] at hidle
      exact absurd hgone.ended.mode hidle

theorem chipAt_tick (s : σ) (request : TwiRequest) (k : ℕ) :
    ChipAt chip (chip.tick s) request k ↔ ChipAt chip s request k := by
  obtain ⟨hphase, hpointer, -⟩ := chip.ticks s
  cases request with
  | write => match k with | 0 | 1 | _ + 2 => simp only [ChipAt, hphase, hpointer]
  | read => match k with | 0 | 1 | 2 | 3 | _ + 4 => simp only [ChipAt, hphase, hpointer]

/-- The registers may change under a transaction. -/
theorem ClockKept.tick {b : Both σ} (h : ClockKept chip b) :
    ClockKept chip (bothStep chip b .tick) := by
  obtain ⟨-, -, hout⟩ := chip.ticks b.clock.chip
  refine ⟨rfl, h.shown, h.picture, h.address, h.queue, ?_⟩
  rcases h.stage with hrest | ⟨s, r, hgoing⟩ | ⟨s, r, hgone⟩
  · exact .resting ⟨hrest.mode, hrest.action, hrest.status, hrest.current⟩
  · refine .going s r ⟨hgoing.log, hgoing.taken, hgoing.status, hgoing.address, hgoing.underway,
      (chipAt_tick _ _ _).mpr hgoing.chipAt, ?_⟩
    have hsame : (bothStep chip b .tick).clock.chip = chip.tick b.clock.chip := rfl
    rw [hsame, hout]
    exact hgoing.current
  · exact .gone s r ⟨hgone.log, hgone.taken, hgone.status, hgone.ended, hgone.busy, hgone.current⟩

theorem clockKept_step (b : Both σ) (e : ClockEvent) (h : ClockKept chip b)
    (hc : ClockSound b.clock e) : ClockKept chip (bothStep chip b e) := by
  cases e with
  | call request => exact h.call hc
  | twiTry => exact h.try
  | vect twsr => exact h.vect twsr
  | tick => exact h.tick

/-! ### Runs -/

variable (chip) in
/-- The registers of the chip, the buffer of `watch.c` and the requests that wait
are those of the transfers; the driver is busy while a transfer is not done. -/
structure Carried (b : Both σ) : Prop where
  regs : chip.regs b.clock.chip = b.files.regs
  watch : b.clock.watch = b.files.sink.1
  queue : ∃ pending : List TwiRequest,
    b.clock.twi.queue.contents = pending.flatMap TwiRequest.record ∧
      b.files.pending = pending.map registerRequest
  resting : (b.clock.twi.mode = .idle ∧ b.clock.twi.mAction = .idle) ↔ b.files.current = .rest
  picture : ∀ buf, b.clock.picture = some buf → ∀ (shiftData : Buffer) (port : Byte),
    readClock (onDisplays shiftData port buf) = some b.files.sink.1.time

theorem ClockKept.resting {b : Both σ} (h : ClockKept chip b) :
    (b.clock.twi.mode = .idle ∧ b.clock.twi.mAction = .idle) ↔ b.files.current = .rest := by
  rcases h.stage with hrest | ⟨s, r, hgoing⟩ | ⟨s, r, hgone⟩
  · exact ⟨fun _ => hrest.current, fun _ => ⟨hrest.mode, hrest.action⟩⟩
  · have hbusy := hgoing.underway.busy
    rw [hgoing.log] at hbusy
    exact ⟨fun hidle => absurd hidle.1 hbusy, fun hcurrent => absurd hcurrent hgoing.busy⟩
  · have haction : b.clock.twi.mAction ≠ .idle := by
      rw [← hgone.log, hgone.ended.same.action]
      exact hgone.taken.action
    exact ⟨fun hidle => absurd hidle.2 haction, fun hcurrent => absurd hcurrent hgone.busy⟩

theorem ClockKept.carried {b : Both σ} (h : ClockKept chip b) : Carried chip b := by
  obtain ⟨pending, ⟨r, htwi, hr⟩, hpending⟩ := h.queue
  refine ⟨h.regs.symm, by rw [h.shown], ⟨pending, ?_, hpending⟩, h.resting, ?_⟩
  · rw [← htwi]
    exact hr.records
  · intro buf hbuf shiftData port
    rw [h.picture buf hbuf, h.shown]
    exact clock_reads b.clock.watch shiftData port

theorem bothRun_kept (s : σ) {es : List ClockEvent}
    (h : Along (clockStep chip) ClockSound (clockStart s) es) :
    ClockKept chip (run (bothStep chip) (bothStart chip s) es) :=
  run_invariant clockKept_step (bothStart_kept chip s) ((along_part fun _ _ => rfl).mpr h)

end

/-! ### A chip -/

/-- Sixteen registers and more, one behind the other, of which the first counts. -/
structure Slave where
  regs : Byte → Byte
  pointer : Byte
  phase : ChipPhase
  out : Byte

def Slave.write (s : Slave) (byte : Byte) : Slave :=
  match s.phase with
  | .started =>
    { s with
      phase :=
        if byte = rtcAddress <<< 1 then .addressed
        else if byte = rtcAddress <<< 1 ||| 1 then .sending else .idle }
  | .addressed => { s with phase := .storing, pointer := byte }
  | .storing => { s with regs := Function.update s.regs s.pointer byte, pointer := s.pointer + 1 }
  | .sending | .idle => s

def Slave.step (s : Slave) : BusEvent → Slave
  | .start => { s with phase := .started }
  | .stop => { s with phase := .idle }
  | .write byte => s.write byte
  | .read =>
    if s.phase = .sending then { s with out := s.regs s.pointer, pointer := s.pointer + 1 } else s

def Slave.chip : RegisterChip Slave where
  step := Slave.step
  tick s := { s with regs := Function.update s.regs regSecond (s.regs regSecond + 1) }
  phase := Slave.phase
  pointer := Slave.pointer
  regs := Slave.regs
  out := Slave.out
  next reg := reg + 1
  start _ := ⟨rfl, rfl, rfl⟩
  stop _ := rfl
  addressed s h := by simp [Slave.step, Slave.write, h]
  sends s h := by
    have hother : ¬ (rtcAddress <<< 1 ||| 1#8) = rtcAddress <<< 1 := by decide
    simp [Slave.step, Slave.write, h, hother]
  points s byte h := by simp [Slave.step, Slave.write, h]
  stores s byte h := by simp [Slave.step, Slave.write, h]
  fetches s h := by simp [Slave.step, h]
  ticks _ := ⟨rfl, rfl, rfl⟩

/-- The interrupts of one byte read, the chip answering each. -/
def readVects : List ClockEvent :=
  [.vect 0x08, .vect 0x18, .vect 0x28, .vect 0x10, .vect 0x40, .vect 0x50]

/-- A second of the clock. -/
def secondEvents : List ClockEvent :=
  clockReads.map .call ++ .twiTry :: readVects ++ .twiTry :: .tick :: .twiTry :: readVects ++
    .twiTry :: .twiTry :: readVects ++ [ClockEvent.twiTry]

def slaveAtTen : Slave := ⟨fun reg => if reg = 2 then 0x10 else 0x30, 0, .idle, 0⟩

end LedServer.Avr
