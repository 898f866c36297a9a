import LedServer.Machine
import LedServer.PiPopen

set_option autoImplicit false

/-!
# One status a command

The timer of a command and the end of its pipe each push a status and erase the
command. Either cancels nothing of the other that is queued already, and a
command that has timed out keeps its process and its process keeps the command.
-/
namespace LedServer.Pi
open Machine

/-- What the state knows of one command. -/
structure View where
  task : Option Task
  statuses : List Status
  erasures : List ℕ
  entries : ℕ

def view (s : Bash) (j : ℕ) : View where
  task := s.tasks j
  statuses := (s.statusQueue.filter fun p => p.1 = j).map Prod.snd
  erasures := (s.erased.filter fun p => p.1 = j).map Prod.snd
  entries := s.commandMap.count j

@[simp] theorem view_set (s : Bash) (i j : ℕ) (task : Task) :
    view (s.set i task) j = if j = i then { view s j with task := some task } else view s j := by
  unfold view Bash.set
  by_cases h : j = i
  · rw [if_pos h]
    simp [h]
  · rw [if_neg h]
    simp [h]

@[simp] theorem view_push (s : Bash) (i j : ℕ) (status : Status) :
    view (s.push i status) j =
      if j = i then { view s j with statuses := (view s j).statuses ++ [status] } else view s j := by
  unfold view Bash.push
  by_cases h : j = i
  · rw [if_pos h]
    simp [h, List.filter_append]
  · rw [if_neg h]
    have hne : ¬ i = j := fun he => h he.symm
    simp [List.filter_append, hne]

@[simp] theorem view_erase (s : Bash) (i j : ℕ) :
    view (s.erase i) j =
      if j = i then
        { view s j with
          erasures := (view s j).erasures ++ [(view s j).entries]
          entries := 0 }
      else view s j := by
  unfold view Bash.erase
  by_cases h : j = i
  · subst h
    rw [if_pos rfl]
    simp [List.filter_append, List.count_eq_zero]
  · rw [if_neg h]
    have hne : ¬ i = j := fun he => h he.symm
    simp [List.filter_append, hne, List.count_filter, h]

theorem view_executeCommand (s : Bash) (command : Command) (j : ℕ) :
    view (executeCommand s command) j =
      if j = s.next then
        { view s j with
          task := some ⟨command, [], .waiting, popenInit, false, true⟩
          entries := (view s j).entries + 1 }
      else view s j := by
  unfold view executeCommand Bash.set
  by_cases h : j = s.next
  · subst h
    simp
  · rw [if_neg h]
    have hne : ¬ s.next = j := fun he => h he.symm
    simp [h, hne]

/-- One more end of a command: a status and a call of `erase`. -/
def View.close (v : View) (status : Status) : View :=
  { v with
    statuses := v.statuses ++ [status]
    erasures := v.erasures ++ [v.entries]
    entries := 0 }

/-! ### The invariant -/

/-- How many of the two ends of a command have come. -/
def ended (task : Task) : ℕ :=
  (if task.timer = .timedOut then 1 else 0) + if task.reading = true then 0 else 1

/-- Each end has pushed a status and called `erase`, which finds the entry the
first time only. -/
structure TaskSound (v : View) (task : Task) : Prop where
  waits : task.reading = true → task.timer ≠ .aborted ∧ task.timer ≠ .cancelled
  statuses : v.statuses.length = ended task
  erasures : v.erasures = [1, 0].take (ended task)
  entries : v.entries = 1 - ended task

def ViewSound (v : View) : Prop :=
  match v.task with
  | none => v.statuses = [] ∧ v.erasures = [] ∧ v.entries = 0
  | some task => task.command.id.stream = false → TaskSound v task

structure BashSound (s : Bash) : Prop where
  fresh : ∀ j, s.next ≤ j → s.tasks j = none
  views : ∀ j, ViewSound (view s j)

theorem ended_le (task : Task) : ended task ≤ 2 := by
  unfold ended
  split_ifs <;> omega

/-- Another end of the same command. -/
theorem TaskSound.another {v : View} {task task' : Task} (h : TaskSound v task) (status : Status)
    (he : ended task' = ended task + 1)
    (hw : task'.reading = true → task'.timer ≠ .aborted ∧ task'.timer ≠ .cancelled) :
    TaskSound { v.close status with task := some task' } task' := by
  have hle := ended_le task'
  obtain ⟨-, hs, hr, hn⟩ := h
  unfold View.close
  refine ⟨hw, ?_, ?_, ?_⟩
  · rw [List.length_append, List.length_singleton, hs, he]
  · dsimp only
    rw [he, hr, hn]
    have hcount : ended task = 0 ∨ ended task = 1 := by omega
    rcases hcount with hc | hc <;> rw [hc] <;> rfl
  · dsimp only
    omega

/-- A step that is no end. -/
theorem TaskSound.same {v : View} {task task' : Task} (h : TaskSound v task)
    (he : ended task' = ended task)
    (hw : task'.reading = true → task'.timer ≠ .aborted ∧ task'.timer ≠ .cancelled) :
    TaskSound { v with task := some task' } task' :=
  ⟨hw, by rw [he]; exact h.statuses, by rw [he]; exact h.erasures, by rw [he]; exact h.entries⟩

/-! ### What a step does to the views -/

/-- Only the task `i` is touched: it becomes `task'`, in the view `v`. -/
structure Touches (s s' : Bash) (i : ℕ) (task' : Task) (v : View) : Prop where
  next : s'.next = s.next
  others : ∀ j, j ≠ i → view s' j = view s j
  self : view s' i = { v with task := some task' }

theorem touches_set (s : Bash) (i : ℕ) (task' : Task) :
    Touches s (s.set i task') i task' (view s i) := by
  refine ⟨rfl, ?_, ?_⟩
  · intro j hj
    rw [view_set, if_neg hj]
  · rw [view_set, if_pos rfl]

theorem touches_erase (s : Bash) (i : ℕ) (task' : Task) :
    Touches s ((s.set i task').erase i) i task'
      { view s i with erasures := (view s i).erasures ++ [(view s i).entries], entries := 0 } := by
  refine ⟨rfl, ?_, ?_⟩
  · intro j hj
    rw [view_erase, view_set, if_neg hj, if_neg hj]
  · rw [view_erase, view_set, if_pos rfl, if_pos rfl]

theorem touches_close (s : Bash) (i : ℕ) (task' : Task) (status : Status) :
    Touches s (((s.set i task').push i status).erase i) i task' ((view s i).close status) := by
  refine ⟨rfl, ?_, ?_⟩
  · intro j hj
    rw [view_erase, view_push, view_set, if_neg hj, if_neg hj, if_neg hj]
  · rw [view_erase, view_push, view_set, if_pos rfl, if_pos rfl, if_pos rfl]
    rfl

theorem touches_passInfo (s : Bash) (i : ℕ) (task : Task) (infos : List Text) :
    ∃ task' v, Touches s (passInfo s i task infos) i task' v ∧ task'.command = task.command ∧
      task'.timer = task.timer ∧ task'.reading = task.reading ∧
      (task.command.id.stream = false → v = view s i) := by
  unfold passInfo
  by_cases hstream : task.command.id.stream = true
  · rw [if_pos hstream]
    refine ⟨task, { view s i with
      statuses := (view s i).statuses ++
        infos.map fun info => ⟨task.command.id, Status.good, info⟩ }, ⟨rfl, ?_, ?_⟩, rfl, rfl, rfl, ?_⟩
    · intro j hj
      have hne : ¬ i = j := fun he => hj he.symm
      simp [view, Bash.set, hj, hne, List.filter_append, List.filter_map, Function.comp_def]
    · simp [view, Bash.set, List.filter_append, List.filter_map, Function.comp_def]
    · intro hno
      rw [hno] at hstream
      cases hstream
  · rw [if_neg hstream]
    exact ⟨_, view s i, touches_set s i _, rfl, rfl, rfl, fun _ => rfl⟩

/-- A timeout is handled while the pipe is still read, and the end of the pipe
while no timeout has been handled. -/
def OneEnd (s : Bash) : BashEvent → Prop
  | .runTimer i => ∀ task, s.tasks i = some task → task.command.id.stream = false →
      task.timer = .expired → task.reading = true
  | .endOfFile i => ∀ task, s.tasks i = some task → task.command.id.stream = false →
      task.reading = true → task.timer ≠ .timedOut
  | _ => True

/-- What an event makes of the task it is about: no end of it, the end by its
timer, or the end of its pipe. -/
inductive TaskStep (s : Bash) (i : ℕ) (e : BashEvent) (task task' : Task) : View → Prop where
  | quiet {v : View} (keeps : OneEnd s e) (reading : task'.reading = task.reading)
      (timer : task'.timer = task.timer ∨ (task.timer = .waiting ∧ task'.timer = .expired) ∨
        (task.timer = .aborted ∧ task'.timer = .cancelled))
      (plain : task.command.id.stream = false → v = view s i) : TaskStep s i e task task' v
  | timeout (status : Status) (he : e = .runTimer i) (timer : task.timer = .expired)
      (timer' : task'.timer = .timedOut) (reading : task'.reading = task.reading) :
      TaskStep s i e task task' ((view s i).close status)
  | endOfFile {v : View} (he : e = .endOfFile i) (reading : task.reading = true)
      (reading' : task'.reading = false) (timer : task'.timer = cancelTimeout task.timer)
      (plain : task.command.id.stream = false → ∃ status, v = (view s i).close status) :
      TaskStep s i e task task' v

theorem bashStep_cases (s : Bash) (e : BashEvent) :
    (bashStep s e = s ∧ OneEnd s e) ∨
      (∃ command, e = .execute command ∧ bashStep s e = executeCommand s command) ∨
      ∃ i task task' v, s.tasks i = some task ∧ Touches s (bashStep s e) i task' v ∧
        task'.command = task.command ∧ TaskStep s i e task task' v := by
  have hno : ∀ i f, s.tasks i = none → s.on i f = s := by
    intro i f hn
    rw [Bash.on, hn]
  have hon : ∀ i f task, s.tasks i = some task → s.on i f = f task := by
    intro i f task hn
    rw [Bash.on, hn]
  cases e with
  | execute command => exact .inr (.inl ⟨command, rfl, rfl⟩)
  | attach i =>
    rw [bashStep]
    cases ht : s.tasks i with
    | none => exact .inl ⟨hno i _ ht, trivial⟩
    | some task =>
      rw [hon i _ task ht]
      exact .inr (.inr ⟨i, task, _, _, ht, touches_set s i _, rfl,
        .quiet trivial rfl (.inl rfl) fun _ => rfl⟩)
  | expire i =>
    rw [bashStep]
    cases ht : s.tasks i with
    | none => exact .inl ⟨hno i _ ht, trivial⟩
    | some task =>
      rw [hon i _ task ht]
      by_cases hw : task.timer = .waiting
      · rw [if_pos hw]
        exact .inr (.inr ⟨i, task, _, _, ht, touches_set s i _, rfl,
          .quiet trivial rfl (.inr (.inl ⟨hw, rfl⟩)) fun _ => rfl⟩)
      · rw [if_neg hw]
        exact .inl ⟨rfl, trivial⟩
  | runTimer i =>
    have hkeeps : (∀ task, s.tasks i = some task → task.timer ≠ .expired) →
        OneEnd s (.runTimer i) := fun h task ht _ he => absurd he (h task ht)
    rw [bashStep]
    cases ht : s.tasks i with
    | none => exact .inl ⟨hno i _ ht, hkeeps (by simp [ht])⟩
    | some task =>
      rw [hon i _ task ht]
      by_cases hq : task.timer = .expired ∨ task.timer = .aborted
      · rw [if_pos hq]
        unfold bashTimeout
        by_cases ha : task.timer = .aborted
        · rw [if_pos ha]
          refine .inr (.inr ⟨i, task, _, _, ht, touches_set s i _, rfl,
            .quiet (hkeeps ?_) rfl (.inr (.inr ⟨ha, rfl⟩)) fun _ => rfl⟩)
          simp [ht, ha]
        · rw [if_neg ha]
          exact .inr (.inr ⟨i, task, _, _, ht, touches_close s i _ _, rfl,
            .timeout _ rfl (hq.resolve_right ha) rfl rfl⟩)
      · rw [if_neg hq]
        refine .inl ⟨rfl, hkeeps ?_⟩
        intro task₁ ht₁ he
        rw [ht, Option.some.injEq] at ht₁
        exact hq (.inl (ht₁ ▸ he))
  | read i chunk =>
    rw [bashStep]
    cases ht : s.tasks i with
    | none => exact .inl ⟨hno i _ ht, trivial⟩
    | some task =>
      rw [hon i _ task ht]
      by_cases hr : task.reading = true
      · rw [if_pos hr]
        obtain ⟨task', v, htouch, hc, htimer, hreading, hv⟩ := touches_passInfo s i
          { task with popen := (handleRead task.popen chunk).1 } (handleRead task.popen chunk).2
        exact .inr (.inr ⟨i, task, task', v, ht, htouch, hc,
          .quiet trivial hreading (.inl htimer) hv⟩)
      · rw [if_neg hr]
        exact .inl ⟨rfl, trivial⟩
  | endOfFile i =>
    have hkeeps : (∀ task, s.tasks i = some task → ¬ task.reading = true) →
        OneEnd s (.endOfFile i) := fun h task ht _ hr => absurd hr (h task ht)
    rw [bashStep]
    cases ht : s.tasks i with
    | none => exact .inl ⟨hno i _ ht, hkeeps (by simp [ht])⟩
    | some task =>
      rw [hon i _ task ht]
      by_cases hr : task.reading = true
      · rw [if_pos hr]
        dsimp only
        by_cases hstream : task.command.id.stream = true
        · rw [if_pos hstream]
          refine .inr (.inr ⟨i, task, _, _, ht, touches_erase s i _, rfl,
            .endOfFile rfl hr rfl rfl ?_⟩)
          intro hplain
          rw [hplain] at hstream
          cases hstream
        · rw [if_neg hstream]
          exact .inr (.inr ⟨i, task, _, _, ht, touches_close s i _ _, rfl,
            .endOfFile rfl hr rfl rfl fun _ => ⟨_, rfl⟩⟩)
      · rw [if_neg hr]
        refine .inl ⟨rfl, hkeeps ?_⟩
        intro task₁ ht₁
        rw [ht, Option.some.injEq] at ht₁
        rw [← ht₁]
        exact hr

/-! ### Sound and once -/

theorem ended_quiet {task task' : Task} (reading : task'.reading = task.reading)
    (timer : task'.timer = task.timer ∨ (task.timer = .waiting ∧ task'.timer = .expired) ∨
      (task.timer = .aborted ∧ task'.timer = .cancelled)) : ended task' = ended task := by
  unfold ended
  rw [reading]
  rcases timer with h | ⟨h, h'⟩ | ⟨h, h'⟩
  · rw [h]
  · rw [h, h']
    rfl
  · rw [h, h']
    rfl

theorem ended_timeout {task task' : Task} (timer : task.timer = .expired)
    (timer' : task'.timer = .timedOut) (reading : task'.reading = task.reading) :
    ended task' = ended task + 1 := by
  have hne : ¬ TimerWait.expired = .timedOut := by decide
  unfold ended
  rw [reading, timer, timer', if_pos rfl, if_neg hne]
  omega

theorem ended_endOfFile {task task' : Task} (reading : task.reading = true)
    (reading' : task'.reading = false) (timer : task'.timer = cancelTimeout task.timer) :
    ended task' = ended task + 1 := by
  have hsame : task'.timer = .timedOut ↔ task.timer = .timedOut := by
    rw [timer]
    unfold cancelTimeout
    cases task.timer <;> decide
  unfold ended
  simp only [reading, reading', hsame, if_true, Bool.false_eq_true, if_false]

theorem bash_sound_step {s : Bash} (h : BashSound s) (e : BashEvent) : BashSound (bashStep s e) := by
  rcases bashStep_cases s e with ⟨he, -⟩ | ⟨command, -, he⟩ |
    ⟨i, task, task', v, ht, htouch, hc, hstep⟩
  · rw [he]
    exact h
  · rw [he]
    constructor
    · intro j hj
      have hlt : s.next < j := hj
      have hview := congrArg View.task (view_executeCommand s command j)
      rw [if_neg (by omega)] at hview
      exact hview.trans (h.fresh j (by omega))
    · intro j
      rw [view_executeCommand]
      by_cases hj : j = s.next
      · rw [if_pos hj]
        have hfresh := h.views j
        have hnone : (view s j).task = none := h.fresh j (by omega)
        unfold ViewSound at hfresh
        rw [hnone] at hfresh
        obtain ⟨hs, hr, hn⟩ := hfresh
        refine fun _ => ⟨fun _ => ⟨by simp, by simp⟩, ?_, ?_, ?_⟩
        · rw [hs]
          rfl
        · rw [hr]
          rfl
        · rw [hn]
          rfl
      · rw [if_neg hj]
        exact h.views j
  · have hlt : i < s.next := by
      by_contra hge
      rw [h.fresh i (by omega)] at ht
      cases ht
    have htask : (view s i).task = some task := ht
    constructor
    · intro j hj
      rw [htouch.next] at hj
      have hview := congrArg View.task (htouch.others j (by omega))
      exact hview.trans (h.fresh j hj)
    · intro j
      by_cases hj : j = i
      · subst hj
        have hold := h.views j
        unfold ViewSound at hold
        rw [htask] at hold
        rw [htouch.self]
        intro hplain
        rw [hc] at hplain
        have hsound := hold hplain
        cases hstep with
        | quiet keeps reading timer plain =>
          rw [plain hplain]
          refine hsound.same (ended_quiet reading timer) fun hr => ?_
          rw [reading] at hr
          obtain ⟨hna, hnc⟩ := hsound.waits hr
          rcases timer with he | ⟨he, he'⟩ | ⟨he, he'⟩
          · rw [he]
            exact ⟨hna, hnc⟩
          · rw [he']
            exact ⟨by simp, by simp⟩
          · exact absurd he hna
        | timeout status he timer timer' reading =>
          refine hsound.another status (ended_timeout timer timer' reading) fun _ => ?_
          rw [timer']
          exact ⟨by simp, by simp⟩
        | endOfFile he reading reading' timer plain =>
          obtain ⟨status, rfl⟩ := plain hplain
          refine hsound.another status (ended_endOfFile reading reading' timer) fun hr => ?_
          rw [reading'] at hr
          cases hr
      · rw [htouch.others j hj]
        exact h.views j

/-- Both ends of a command have been delivered, if only as an aborted wait. -/
def Settled (task : Task) : Prop :=
  task.reading = false ∧ (task.timer = .timedOut ∨ task.timer = .cancelled)

instance (task : Task) : Decidable (Settled task) := inferInstanceAs (Decidable (_ ∧ _))

/-- A command that is no stream has pushed one status at most and has been erased
once at most, and exactly once when both its ends have been delivered. -/
def Once (s : Bash) : Prop :=
  ∀ i task, s.tasks i = some task → task.command.id.stream = false →
    (view s i).statuses.length ≤ 1 ∧ (view s i).erasures <+: [1] ∧
      (Settled task → (view s i).statuses.length = 1 ∧ (view s i).erasures = [1])

theorem once_iff {s : Bash} (h : BashSound s) :
    Once s ↔ ∀ i task, s.tasks i = some task → task.command.id.stream = false → ended task ≤ 1 := by
  have hsound : ∀ i task, s.tasks i = some task → task.command.id.stream = false →
      TaskSound (view s i) task := by
    intro i task ht hplain
    have hview := h.views i
    unfold ViewSound at hview
    rw [show (view s i).task = some task from ht] at hview
    exact hview hplain
  constructor
  · intro ho i task ht hplain
    rw [← (hsound i task ht hplain).statuses]
    exact (ho i task ht hplain).1
  · intro ho i task ht hplain
    obtain ⟨-, hs, hr, -⟩ := hsound i task ht hplain
    have hle := ho i task ht hplain
    rw [hs, hr]
    have hcount : ended task = 0 ∨ ended task = 1 := by omega
    refine ⟨hle, ?_, ?_⟩
    · rcases hcount with hc | hc <;> rw [hc] <;> decide
    · rintro ⟨hreading, -⟩
      have hpos : 1 ≤ ended task := by
        unfold ended
        rw [hreading]
        simp
      have hone : ended task = 1 := by omega
      rw [hone]
      exact ⟨rfl, rfl⟩

theorem once_step_iff {s : Bash} (h : BashSound s) (ho : Once s) (e : BashEvent) :
    Once (bashStep s e) ↔ OneEnd s e := by
  rw [once_iff (bash_sound_step h e)]
  rw [once_iff h] at ho
  rcases bashStep_cases s e with ⟨he, hkeeps⟩ | ⟨command, rfl, he⟩ |
    ⟨i, task, task', v, ht, htouch, hc, hstep⟩
  · rw [he]
    exact iff_of_true ho hkeeps
  · refine iff_of_true ?_ trivial
    rw [he]
    intro j task ht hplain
    have hview := congrArg View.task (view_executeCommand s command j)
    by_cases hj : j = s.next
    · rw [if_pos hj] at hview
      have hnew : some task = some ⟨command, [], .waiting, popenInit, false, true⟩ :=
        ht.symm.trans hview
      rw [Option.some.injEq] at hnew
      rw [hnew]
      exact Nat.zero_le 1
    · rw [if_neg hj] at hview
      exact ho j task (hview.symm.trans ht) hplain
  · have hself : (bashStep s e).tasks i = some task' := congrArg View.task htouch.self
    have hall : (∀ j task, (bashStep s e).tasks j = some task → task.command.id.stream = false →
        ended task ≤ 1) ↔ (task.command.id.stream = false → ended task' ≤ 1) := by
      constructor
      · intro hj hplain
        exact hj i task' hself (by rw [hc]; exact hplain)
      · intro hi j task₁ ht₁ hplain₁
        by_cases hj : j = i
        · subst hj
          rw [hself, Option.some.injEq] at ht₁
          subst ht₁
          exact hi (by rw [← hc]; exact hplain₁)
        · exact ho j task₁ ((congrArg View.task (htouch.others j hj)).symm.trans ht₁) hplain₁
    rw [hall]
    cases hstep with
    | quiet keeps reading timer plain =>
      refine iff_of_true (fun hplain => ?_) keeps
      rw [ended_quiet reading timer]
      exact ho i task ht hplain
    | timeout status he timer timer' reading =>
      subst he
      rw [ended_timeout timer timer' reading]
      unfold OneEnd ended
      rw [timer]
      constructor
      · intro hle task₁ ht₁ hplain₁ _
        rw [ht, Option.some.injEq] at ht₁
        subst ht₁
        by_contra hr
        have := hle hplain₁
        simp [hr] at this
      · intro hr hplain
        simp [hr task ht hplain timer]
    | endOfFile he reading reading' timer plain =>
      subst he
      rw [ended_endOfFile reading reading' timer]
      unfold OneEnd ended
      constructor
      · intro hle task₁ ht₁ hplain₁ _ htimed
        rw [ht, Option.some.injEq] at ht₁
        subst ht₁
        have := hle hplain₁
        simp [reading, htimed] at this
      · intro hn hplain
        simp [reading, hn task ht hplain reading]

theorem bashInit_sound : BashSound bashInit := by
  constructor
  · intro j _
    rfl
  · intro j
    exact ⟨rfl, rfl, rfl⟩

/-- In every run, each command that is no stream pushes one status and is erased
once exactly when no command ends in both ways. -/
theorem once_iff_oneEnd (es : List BashEvent) :
    Throughout bashStep Once bashInit es ↔ Along bashStep OneEnd bashInit es :=
  throughout_iff_along (fun _ e h _ _ => bash_sound_step h e)
    (fun _ e h ho => once_step_iff h ho e) bashInit_sound fun i task ht => by cases ht

/-- The name of a track takes longer than three seconds. -/
def slowName : List BashEvent :=
  [.execute ⟨.mpcTrackName, text "led-mpc.sh track-name 7", threeSeconds⟩, .attach 0, .expire 0,
    .runTimer 0, .read 0 (text "7-Song\nstatus: 0\n"), .endOfFile 0]

theorem slow_name_twice :
    (view (run bashStep bashInit slowName) 0).statuses =
        [⟨.mpcTrackName, Status.timeout, []⟩, ⟨.mpcTrackName, Status.good, text "7-Song"⟩] ∧
      (view (run bashStep bashInit slowName) 0).erasures = [1, 0] := by
  decide +kernel

end LedServer.Pi
