import LedServer.Machine
import LedServer.PiContent

set_option autoImplicit false

/-!
# What `content_t` gives out

A system text is given once, in the order of arrival. With neither a name nor a
system text left, the clock and the track take turns.
-/
namespace LedServer.Pi
open Machine

/-- Where `content_t::out` takes its text from. -/
inductive Source where
  | top | middle | bottom (id : CommandId) | nowhere
deriving DecidableEq

def Source.isBottom : Source → Bool
  | .bottom _ => true
  | _ => false

namespace Content

/-- Where `out` comes to stand in `m_bottom_info`. -/
def current (c : Content) : Option CommandId := if c.iterator = none then c.begin else c.iterator

def source (c : Content) : Source :=
  if c.topInfo ≠ [] then .top
  else if c.middleInfo ≠ [] then .middle
  else
    match c.current with
    | some id => .bottom id
    | none => .nowhere

end Content

inductive ContentEvent where
  | input (status : Status)
  | out
  | clearTop

/-- `content_t` with the texts given so far, each with its source. -/
structure Talk where
  content : Content
  given : List (Source × Text)

def talkStep (t : Talk) : ContentEvent → Talk
  | .input status => { t with content := (t.content.input status).1 }
  | .out => ⟨t.content.out.1, t.given ++ [(t.content.source, t.content.out.2)]⟩
  | .clearTop => { t with content := t.content.clearTop }

def talkStart (trackRegexList : List (Text → Option Text)) : Talk :=
  ⟨contentInit trackRegexList, []⟩

/-! ### The system texts -/

def systemText (status : Status) : Option Text :=
  if status.id = .streamSystem then some status.out else none

/-- The texts of one source, in the order they were given. -/
def givenFrom (source : Source) (given : List (Source × Text)) : List Text :=
  given.filterMap fun p => if p.1 = source then some p.2 else none

theorem givenFrom_append (source : Source) (given more : List (Source × Text)) :
    givenFrom source (given ++ more) = givenFrom source given ++ givenFrom source more :=
  List.filterMap_append

namespace Content

theorem input_middle (c : Content) (status : Status) :
    (c.input status).1.middleInfo = c.middleInfo ++ (systemText status).toList := by
  have hstore : (c.store status).middleInfo = c.middleInfo ++ (systemText status).toList := by
    unfold store systemText
    cases hid : status.id <;> simp <;> first | rfl | (split_ifs <;> rfl)
  unfold input
  dsimp only
  split_ifs <;> exact hstore

/-- What is given from the queue leaves it at the front. -/
theorem out_middle (c : Content) :
    givenFrom .middle [(c.source, c.out.2)] ++ c.out.1.middleInfo = c.middleInfo := by
  by_cases htop : c.topInfo ≠ []
  · have hsource : c.source = .top := if_pos htop
    have hout : c.out.1 = c := by
      unfold out
      rw [if_pos htop]
    rw [hsource, hout]
    rfl
  · cases hmiddle : c.middleInfo with
    | cons info rest =>
      have hsource : c.source = .middle := by
        unfold source
        rw [if_neg htop, if_pos (by rw [hmiddle]; simp)]
      have hout : c.out = ({ c with middleInfo := rest }, info) := by
        unfold out
        rw [if_neg htop, hmiddle]
      rw [hsource, hout]
      rfl
    | nil =>
      have hsource : c.source ≠ .middle := by
        unfold source
        rw [if_neg htop, if_neg (by rw [hmiddle]; simp)]
        cases c.current <;> simp
      have hout : c.out.1.middleInfo = [] := by
        unfold out
        rw [if_neg htop, hmiddle]
        dsimp only
        split
        · rfl
        · exact hmiddle
      have hnone : givenFrom .middle [(c.source, c.out.2)] = [] := by simp [givenFrom, hsource]
      rw [hnone, hout]
      rfl

end Content

/-- The system texts that have come in, in their order. -/
def systemTexts (es : List ContentEvent) : List Text :=
  es.filterMap fun e => match e with
    | .input status => systemText status
    | _ => none

theorem middle_step (t : Talk) (e : ContentEvent) :
    givenFrom .middle (talkStep t e).given ++ (talkStep t e).content.middleInfo =
      givenFrom .middle t.given ++ t.content.middleInfo ++ systemTexts [e] := by
  cases e with
  | input status =>
    have htexts : systemTexts [.input status] = (systemText status).toList := by
      unfold systemTexts
      cases hsystem : systemText status <;> simp [hsystem]
    show givenFrom .middle t.given ++ (t.content.input status).1.middleInfo = _
    rw [Content.input_middle, htexts, List.append_assoc]
  | out =>
    show givenFrom .middle (t.given ++ [(t.content.source, t.content.out.2)]) ++
      t.content.out.1.middleInfo = givenFrom .middle t.given ++ t.content.middleInfo ++ []
    rw [givenFrom_append, List.append_assoc, Content.out_middle, List.append_nil]
  | clearTop => exact (List.append_nil _).symm

/-- Over every run: a system text has been given once, or waits. -/
theorem system_texts_once (trackRegexList : List (Text → Option Text)) (es : List ContentEvent) :
    let t := run talkStep (talkStart trackRegexList) es
    givenFrom .middle t.given ++ t.content.middleInfo = systemTexts es := by
  induction es using List.reverseRecOn with
  | nil => rfl
  | append_singleton es e ih =>
    have happend : systemTexts (es ++ [e]) = systemTexts es ++ systemTexts [e] :=
      List.filterMap_append
    intro t
    have hrun : t = talkStep (run talkStep (talkStart trackRegexList) es) e := run_append ..
    rw [hrun, middle_step, ih, happend]

/-! ### The bottom texts -/

namespace Content

/-- The entry `m_iterator` stands at exists. -/
def Valid (c : Content) : Prop := ∀ id, c.iterator = some id → id ∈ c.keys

/-- The index of the entry `out` comes to stand at. -/
def position (c : Content) : ℕ := (c.iterator.map c.keys.idxOf).getD 0

/-- The bottom texts have their turn. -/
structure AtBottom (c : Content) : Prop where
  top : c.topInfo = []
  middle : c.middleInfo = []
  keys : c.keys ≠ []
  valid : c.Valid

theorem all_nodup : CommandId.all.Nodup := by decide

theorem keys_nodup (c : Content) : c.keys.Nodup := all_nodup.filter _

theorem keys_mem {c : Content} {id : CommandId} (h : (c.bottomInfo id).isSome) : id ∈ c.keys :=
  List.mem_filter.mpr ⟨by cases id <;> decide, h⟩

theorem Valid.position_lt {c : Content} (h : c.Valid) (hkeys : c.keys ≠ []) :
    c.position < c.keys.length := by
  unfold position
  cases hiterator : c.iterator with
  | none => exact List.length_pos_iff.mpr hkeys
  | some id => exact List.idxOf_lt_length_of_mem (h id hiterator)

theorem AtBottom.current {c : Content} (h : c.AtBottom) :
    ∃ id, c.keys[c.position]? = some id ∧ c.current = some id := by
  unfold Content.current position
  cases hiterator : c.iterator with
  | none =>
    refine ⟨c.keys.head h.keys, ?_, ?_⟩
    · exact List.head?_eq_getElem?.symm.trans (List.head?_eq_some_head h.keys)
    · exact List.head?_eq_some_head h.keys
  | some id =>
    exact ⟨id, List.getElem?_idxOf (h.valid id hiterator), if_neg (by simp)⟩

theorem dropWhile_ne {α : Type} [DecidableEq α] {keys : List α} (h : keys.Nodup) {i : ℕ} {key : α}
    (hkey : keys[i]? = some key) : keys.dropWhile (· ≠ key) = keys.drop i := by
  induction keys generalizing i with
  | nil => simp at hkey
  | cons first keys ih =>
    obtain ⟨hfirst, hrest⟩ := List.nodup_cons.mp h
    cases i with
    | zero =>
      obtain rfl : first = key := by simpa using hkey
      exact List.dropWhile_cons_of_neg (by simp)
    | succ i =>
      have hlater : keys[i]? = some key := hkey
      have hne : first ≠ key := fun heq => hfirst (heq ▸ List.mem_of_getElem? hlater)
      rw [List.dropWhile_cons_of_pos (by simpa using hne), ih hrest hlater, List.drop_succ_cons]

/-- The iterator goes on to the next entry, or to the end. -/
theorem next_eq (c : Content) {i : ℕ} {id : CommandId} (h : c.keys[i]? = some id) :
    c.next id = c.keys[i + 1]? := by
  unfold next
  rw [dropWhile_ne c.keys_nodup h, List.drop_drop, List.head?_drop]

/-- What `out` gives when the bottom texts have their turn. -/
def entry (c : Content) (id : CommandId) : Source × Text := (.bottom id, (c.bottomInfo id).getD [])

theorem AtBottom.out {c : Content} (h : c.AtBottom) :
    ∃ id, c.keys[c.position]? = some id ∧ (c.source, c.out.2) = c.entry id ∧
      c.out.1 = { c with iterator := c.keys[c.position + 1]? } := by
  obtain ⟨id, hkey, hcurrent⟩ := h.current
  have htop : ¬ c.topInfo ≠ [] := not_not.mpr h.top
  have hsource : c.source = .bottom id := by
    unfold source
    rw [if_neg htop, if_neg (not_not.mpr h.middle), hcurrent]
  have hout : c.out = ({ c with iterator := c.next id }, (c.bottomInfo id).getD []) := by
    unfold Content.out
    rw [if_neg htop, h.middle]
    dsimp only
    rw [show (if c.iterator = none then c.begin else c.iterator) = some id from hcurrent]
  rw [hsource, hout, c.next_eq hkey]
  exact ⟨id, hkey, rfl, rfl⟩

theorem AtBottom.step {c : Content} (h : c.AtBottom) :
    c.out.1.AtBottom ∧ c.out.1.keys = c.keys ∧ c.out.1.bottomInfo = c.bottomInfo ∧
      c.out.1.position = (c.position + 1) % c.keys.length := by
  have hlt := h.valid.position_lt h.keys
  obtain ⟨-, -, -, hout⟩ := h.out
  rw [hout]
  refine ⟨⟨h.top, h.middle, h.keys, fun id hid => ?_⟩, rfl, rfl, ?_⟩
  · exact List.mem_of_getElem? hid
  · show ((c.keys[c.position + 1]?).map c.keys.idxOf).getD 0 = _
    by_cases hlast : c.position + 1 < c.keys.length
    · rw [List.getElem?_eq_getElem hlast, Nat.mod_eq_of_lt hlast]
      exact c.keys_nodup.idxOf_getElem _ hlast
    · have hend : c.position + 1 = c.keys.length := by omega
      rw [List.getElem?_eq_none (by omega), hend, Nat.mod_self]
      rfl

/-- Call after call of `out` the entries come round. -/
theorem AtBottom.rotates {c : Content} (h : c.AtBottom) (given : List (Source × Text)) (k : ℕ) :
    ∃ turns : List CommandId, turns.length = k ∧
      (∀ i < k, turns[i]? = c.keys[(c.position + i) % c.keys.length]?) ∧
      (run talkStep ⟨c, given⟩ (List.replicate k .out)).given = given ++ turns.map c.entry := by
  induction k generalizing c given with
  | zero => exact ⟨[], rfl, fun i hi => absurd hi (Nat.not_lt_zero i), (List.append_nil given).symm⟩
  | succ k ih =>
    obtain ⟨hbottom, hkeys, hinfo, hposition⟩ := h.step
    obtain ⟨id, hid, hfirst, -⟩ := h.out
    obtain ⟨turns, hlength, hturns, hgiven⟩ := ih hbottom (given ++ [c.entry id])
    have hentry : c.out.1.entry = c.entry := by
      funext key
      unfold entry
      rw [hinfo]
    refine ⟨id :: turns, by rw [List.length_cons, hlength], fun i hi => ?_, ?_⟩
    · cases i with
      | zero => rw [List.getElem?_cons_zero, Nat.add_zero, Nat.mod_eq_of_lt (h.valid.position_lt h.keys), hid]
      | succ i =>
        rw [List.getElem?_cons_succ, hturns i (by omega), hkeys, hposition, Nat.mod_add_mod,
          Nat.add_assoc, Nat.add_comm 1 i]
    · rw [List.replicate_succ, run_cons]
      show (run talkStep ⟨c.out.1, given ++ [(c.source, c.out.2)]⟩ _).given = _
      rw [hfirst, hgiven, hentry, List.map_cons, List.append_assoc, List.singleton_append]

/-- What `in` keeps. -/
structure Sound (c : Content) : Prop where
  valid : c.Valid
  system : c.bottomInfo .streamSystem = none

theorem find_mem {c : Content} {id k : CommandId} (h : c.find id = some k) : k ∈ c.keys := by
  unfold find at h
  split_ifs at h with hsome
  obtain rfl := Option.some.inj h
  exact keys_mem hsome

theorem store_system {c : Content} (h : c.bottomInfo .streamSystem = none) (status : Status) :
    (c.store status).bottomInfo .streamSystem = none := by
  have hinsert : ∀ id info, id ≠ .streamSystem →
      (c.insert id info).bottomInfo .streamSystem = none := by
    intro id info hid
    exact (Function.update_of_ne hid.symm _ _).trans h
  unfold store
  cases status.id with
  | streamClock => exact hinsert .streamClock _ (by decide)
  | streamTrackName =>
    dsimp only
    split_ifs
    · exact h
    · exact hinsert .streamTrackName _ (by decide)
  | _ => exact h

theorem Sound.input {c : Content} (h : c.Sound) (status : Status) : (c.input status).1.Sound := by
  by_cases hid : status.id = .streamSystem
  · have hinput : (c.input status).1 = { c with middleInfo := c.middleInfo ++ [status.out] } := by
      unfold Content.input store
      simp [hid]
    rw [hinput]
    exact ⟨h.valid, h.system⟩
  · have hinput : (c.input status).1 =
        { c.store status with iterator := (c.store status).find status.id } := if_neg hid
    rw [hinput]
    exact ⟨fun id hiterator => find_mem hiterator, store_system h.system status⟩

theorem next_mem {c : Content} {id k : CommandId} (h : c.next id = some k) : k ∈ c.keys := by
  unfold next at h
  have hrest : k ∈ (c.keys.dropWhile (· ≠ id)).drop 1 := List.mem_of_mem_head? h
  exact (List.dropWhile_suffix _).subset (List.mem_of_mem_drop hrest)

theorem Sound.out {c : Content} (h : c.Sound) : c.out.1.Sound := by
  unfold Content.out
  split
  · exact h
  · cases c.middleInfo with
    | cons info rest => exact ⟨h.valid, h.system⟩
    | nil =>
      dsimp only
      split
      · exact ⟨fun k hk => next_mem hk, h.system⟩
      · exact h

theorem sound_step (t : Talk) (e : ContentEvent) (h : t.content.Sound) :
    (talkStep t e).content.Sound := by
  cases e with
  | input status => exact h.input status
  | out => exact h.out
  | clearTop => exact ⟨h.valid, h.system⟩

/-- The entry that has just come in is the next to be given. -/
theorem Sound.input_position {c : Content} (h : c.Sound) (status : Status)
    (hmem : status.id ∈ (c.input status).1.keys) :
    (c.input status).1.keys[(c.input status).1.position]? = some status.id := by
  have hsome : ((c.input status).1.bottomInfo status.id).isSome := (List.mem_filter.mp hmem).2
  by_cases hid : status.id = .streamSystem
  · rw [hid, (h.input status).system] at hsome
    cases hsome
  · have hinput : (c.input status).1 =
        { c.store status with iterator := (c.store status).find status.id } := if_neg hid
    have hiterator : (c.input status).1.iterator = some status.id := by
      rw [hinput] at hsome ⊢
      exact if_pos hsome
    unfold position
    rw [hiterator]
    exact List.getElem?_idxOf hmem

/-- Out of their turn, `out` leaves `m_iterator` where it stands. -/
theorem Valid.out_elsewhere {c : Content} (h : c.Valid) (hother : ¬ c.AtBottom) :
    c.out.1.keys = c.keys ∧ c.out.1.position = c.position ∧ c.source.isBottom = false := by
  by_cases htop : c.topInfo ≠ []
  · have hout : c.out.1 = c := by
      unfold out
      rw [if_pos htop]
    have hsource : c.source = .top := if_pos htop
    rw [hout, hsource]
    exact ⟨rfl, rfl, rfl⟩
  by_cases hmiddle : c.middleInfo ≠ []
  · obtain ⟨info, rest, hinfo⟩ := List.exists_cons_of_ne_nil hmiddle
    have hout : c.out.1 = { c with middleInfo := rest } := by
      unfold out
      rw [if_neg htop, hinfo]
    have hsource : c.source = .middle := by
      unfold source
      rw [if_neg htop, if_pos hmiddle]
    rw [hout, hsource]
    exact ⟨rfl, rfl, rfl⟩
  have hkeys : c.keys = [] := by
    by_contra hkeys
    exact hother ⟨not_not.mp htop, not_not.mp hmiddle, hkeys, h⟩
  have hiterator : c.iterator = none := by
    cases hid : c.iterator with
    | none => rfl
    | some id =>
      have hmem := h id hid
      rw [hkeys] at hmem
      cases hmem
  have hcurrent : c.current = none := by
    unfold current begin
    rw [if_pos hiterator, hkeys]
    rfl
  have hout : c.out.1 = c := by
    unfold out
    rw [if_neg htop, not_not.mp hmiddle]
    dsimp only
    rw [show (if c.iterator = none then c.begin else c.iterator) = none from hcurrent]
  have hsource : c.source = .nowhere := by
    unfold source
    rw [if_neg htop, if_neg hmiddle, hcurrent]
  rw [hout, hsource]
  exact ⟨rfl, rfl, rfl⟩

theorem Valid.position_mod {c : Content} (h : c.Valid) :
    c.position = (c.position + 0) % c.keys.length := by
  by_cases hkeys : c.keys = []
  · rw [hkeys]
    exact (Nat.mod_zero _).symm
  · exact (Nat.mod_eq_of_lt (h.position_lt hkeys)).symm

end Content

/-- Nothing comes in that `m_iterator` would go to. -/
def ContentEvent.KeepsTurn : ContentEvent → Prop
  | .input status => status.id = .streamSystem
  | .out => True
  | .clearTop => True

/-- How many of the texts given are entries of `m_bottom_info`. -/
def bottomGiven (given : List (Source × Text)) : ℕ := given.countP fun p => p.1.isBottom

/-- `m_iterator` goes on by as many entries as have been given. -/
structure TurnedOn (t u : Talk) : Prop where
  keys : u.content.keys = t.content.keys
  turned : ∃ m, bottomGiven u.given = bottomGiven t.given + m ∧
    u.content.position = (t.content.position + m) % t.content.keys.length

theorem TurnedOn.trans {t u v : Talk} (h : TurnedOn t u) (hnext : TurnedOn u v) : TurnedOn t v := by
  obtain ⟨m, hgiven, hposition⟩ := h.turned
  obtain ⟨n, hgiven', hposition'⟩ := hnext.turned
  refine ⟨hnext.keys.trans h.keys, m + n, by omega, ?_⟩
  rw [hposition', hposition, h.keys, Nat.mod_add_mod, Nat.add_assoc]

theorem turnedOn_step {t : Talk} {e : ContentEvent} (he : e.KeepsTurn) (h : t.content.Valid) :
    TurnedOn t (talkStep t e) := by
  cases e with
  | input status =>
    have hinput : (t.content.input status).1 =
        { t.content with middleInfo := t.content.middleInfo ++ [status.out] } := by
      unfold Content.input Content.store
      rw [he]
      rfl
    refine ⟨?_, 0, rfl, ?_⟩
    · show (t.content.input status).1.keys = _
      rw [hinput]
      rfl
    · show (t.content.input status).1.position = _
      rw [hinput]
      exact h.position_mod
  | clearTop => exact ⟨rfl, 0, rfl, h.position_mod⟩
  | out =>
    have hgiven : bottomGiven (talkStep t .out).given =
        bottomGiven t.given + if t.content.source.isBottom then 1 else 0 := by
      show bottomGiven (t.given ++ [(t.content.source, t.content.out.2)]) = _
      unfold bottomGiven
      rw [List.countP_append, List.countP_singleton]
    by_cases hbottom : t.content.AtBottom
    · obtain ⟨id, -, hentry, -⟩ := hbottom.out
      have hsource : t.content.source = .bottom id := congrArg Prod.fst hentry
      obtain ⟨-, hkeys, -, hposition⟩ := hbottom.step
      rw [hsource] at hgiven
      exact ⟨hkeys, 1, hgiven, hposition⟩
    · obtain ⟨hkeys, hposition, hsource⟩ := h.out_elsewhere hbottom
      rw [hsource] at hgiven
      exact ⟨hkeys, 0, hgiven, hposition.trans h.position_mod⟩

theorem turnedOn_run {t : Talk} {es : List ContentEvent} (hes : ∀ e ∈ es, e.KeepsTurn)
    (h : t.content.Sound) : TurnedOn t (run talkStep t es) := by
  induction es generalizing t with
  | nil => exact ⟨rfl, 0, rfl, h.valid.position_mod⟩
  | cons e es ih =>
    have hstep := turnedOn_step (hes e (List.mem_cons_self ..)) h.valid
    have hrest := ih (fun e' he' => hes e' (List.mem_cons_of_mem _ he'))
      (Content.sound_step t e h)
    exact hstep.trans hrest

/-- After every run, once no other text is left, the entries of `m_bottom_info` are
given in turn. The turn starts at the entry that came in last, and has gone on with
each entry given since. -/
theorem bottom_texts_rotate (trackRegexList : List (Text → Option Text)) (es : List ContentEvent)
    (k : ℕ) (htop : (run talkStep (talkStart trackRegexList) es).content.topInfo = [])
    (hmiddle : (run talkStep (talkStart trackRegexList) es).content.middleInfo = [])
    (hkeys : (run talkStep (talkStart trackRegexList) es).content.keys ≠ []) :
    let t := run talkStep (talkStart trackRegexList) es
    let keys := t.content.keys
    ∃ p, (∀ before status since, es = before ++ .input status :: since →
        (∀ e ∈ since, e.KeepsTurn) → status.id ∈ keys →
        ∃ i m, keys[i]? = some status.id ∧
          bottomGiven t.given =
            bottomGiven (run talkStep (talkStart trackRegexList) before).given + m ∧
          p = (i + m) % keys.length) ∧
      ∃ turns : List CommandId, turns.length = k ∧
        (∀ i < k, turns[i]? = keys[(p + i) % keys.length]?) ∧
        (run talkStep t (List.replicate k .out)).given =
          t.given ++ turns.map t.content.entry := by
  intro t keys
  have hstart : (talkStart trackRegexList).content.Sound := ⟨(fun id hid => by cases hid), rfl⟩
  have hsound : t.content.Sound := run_keeps Content.sound_step es hstart
  have hbottom : t.content.AtBottom := ⟨htop, hmiddle, hkeys, hsound.valid⟩
  refine ⟨t.content.position, fun before status since hes hsince hmem => ?_,
    hbottom.rotates t.given k⟩
  let s := run talkStep (talkStart trackRegexList) before
  have hbefore : s.content.Sound := run_keeps Content.sound_step before hstart
  have hrun : t = run talkStep (talkStep s (.input status)) since := by
    show run talkStep _ es = _
    rw [hes, run_append, run_cons]
  have hturned : TurnedOn (talkStep s (.input status)) t := by
    rw [hrun]
    exact turnedOn_run hsince (hbefore.input status)
  have hmem' : status.id ∈ (talkStep s (.input status)).content.keys := hturned.keys ▸ hmem
  have hfirst := hbefore.input_position status hmem'
  obtain ⟨m, hgiven, hposition⟩ := hturned.turned
  refine ⟨(s.content.input status).1.position, m, ?_, hgiven, ?_⟩
  · show t.content.keys[_]? = _
    rw [hturned.keys]
    exact hfirst
  · show t.content.position = _ % t.content.keys.length
    rw [hturned.keys]
    exact hposition

/-- The clock and a track come in, the track is given, and three texts follow. -/
theorem bottom_texts_rotate_twice :
    let es : List ContentEvent := [.input ⟨.streamClock, Status.good, text "12:00"⟩,
      .input ⟨.streamTrackName, Status.good, text "Song"⟩, .out]
    let t := run talkStep (talkStart []) es
    let keys := t.content.keys
    ∃ p, (∀ before status since, es = before ++ .input status :: since →
        (∀ e ∈ since, e.KeepsTurn) → status.id ∈ keys →
        ∃ i m, keys[i]? = some status.id ∧
          bottomGiven t.given = bottomGiven (run talkStep (talkStart []) before).given + m ∧
          p = (i + m) % keys.length) ∧
      ∃ turns : List CommandId, turns.length = 3 ∧
        (∀ i < 3, turns[i]? = keys[(p + i) % keys.length]?) ∧
        (run talkStep t (List.replicate 3 .out)).given =
          t.given ++ turns.map t.content.entry :=
  bottom_texts_rotate [] _ 3 (by decide) (by decide) (by decide)

end LedServer.Pi
