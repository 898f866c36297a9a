import LedServer.Machine

set_option autoImplicit false

/-!
# A loop that waits on a condition variable

One thread runs a loop for as long as a flag is set, and waits in it. Others
change under the mutex what it works on and may notify it; one of them clears the
flag and notifies it too. The loop is given step by step, so that all this comes
in between.
-/
namespace WaitLoop
open Machine

variable {σ κ π : Type*}

/-- What follows a step: the next one, or a wait that goes on from `k`. -/
inductive Outcome (κ : Type*) where
  | goto (k : κ)
  | wait (k : κ)
  | exit
deriving DecidableEq

inductive Thread (κ : Type*) where
  | running (k : κ)
  | waiting (k : κ)
  | notified (k : κ)
  | exited
deriving DecidableEq

/-- How far the one who ends the loop has come. -/
inductive Stopping where
  | idle | stored | fenced | issued
deriving DecidableEq

/-- `next` is given the flag, and `holds` tells where the mutex is held. What
others do with the data may come with a notification. `fences` tells whether the
mutex is taken, and given back, before the last notification. -/
structure Worker (σ κ π : Type*) where
  next : Bool → σ → κ → σ × Outcome κ
  holds : κ → Bool
  interfere : π → σ → σ × Bool
  fences : Bool

structure Loop (σ κ : Type*) where
  data : σ
  thread : Thread κ
  go : Bool
  stopping : Stopping

inductive Event (π : Type*) where
  | work
  | interfere (p : π)
  | stop
  | wakeup
deriving DecidableEq

def Loop.start (s : σ) (k : κ) : Loop σ κ := ⟨s, .running k, true, .idle⟩

def Outcome.thread : Outcome κ → Thread κ
  | .goto k => .running k
  | .wait k => .waiting k
  | .exit => .exited

def Thread.notify : Thread κ → Thread κ
  | .waiting k => .notified k
  | thread => thread

def Loop.notify (t : Loop σ κ) : Loop σ κ := { t with thread := t.thread.notify }

namespace Worker

variable (w : Worker σ κ π)

/-- The mutex can be taken. -/
def free (t : Loop σ κ) : Bool :=
  match t.thread with
  | .running k => !w.holds k
  | _ => true

def work (t : Loop σ κ) : Loop σ κ :=
  match t.thread with
  | .running k =>
    { t with data := (w.next t.go t.data k).1, thread := (w.next t.go t.data k).2.thread }
  | .notified k => { t with thread := .running k }
  | _ => t

def disturb (t : Loop σ κ) (p : π) : Loop σ κ :=
  if w.free t then
    { t with
      data := (w.interfere p t.data).1
      thread := if (w.interfere p t.data).2 then t.thread.notify else t.thread }
  else t

def stop (t : Loop σ κ) : Loop σ κ :=
  match t.stopping with
  | .idle => { t with go := false, stopping := .stored }
  | .stored =>
    if w.fences then if w.free t then { t with stopping := .fenced } else t
    else { t with thread := t.thread.notify, stopping := .issued }
  | .fenced => { t with thread := t.thread.notify, stopping := .issued }
  | .issued => t

/-- A thread may also wake up for no reason. -/
def step (t : Loop σ κ) : Event π → Loop σ κ
  | .work => w.work t
  | .interfere p => w.disturb t p
  | .stop => w.stop t
  | .wakeup => t.notify

end Worker

/-! ### What holds while the thread waits -/

/-- The thread that waits without a notification finds `waits` true. -/
def Sleeps (waits : σ → Prop) (t : Loop σ κ) : Prop :=
  ∀ k, t.thread = .waiting k → waits t.data

/-- What a step leads to, by whether the thread then runs or waits. -/
def Meets (running waiting : κ → σ → Prop) (r : σ × Outcome κ) : Prop :=
  match r.2 with
  | .goto k => running k r.1
  | .wait k => waiting k r.1
  | .exit => True

/-- `pre` is kept before each step of the loop, `waits` during its waits: whoever
ends the wait by what he does notifies. -/
structure Annotated (w : Worker σ κ π) (pre : κ → σ → Prop) (waits : σ → Prop) : Prop where
  next : ∀ {go s k}, pre k s → Meets pre (fun k' s' => waits s' ∧ ∀ s, pre k' s) (w.next go s k)
  stable : ∀ {p s k}, w.holds k = false → pre k s → pre k (w.interfere p s).1
  silent : ∀ {p s}, waits s → (w.interfere p s).2 = false → waits (w.interfere p s).1

def Asserts (pre : κ → σ → Prop) (waits : σ → Prop) (t : Loop σ κ) : Prop :=
  match t.thread with
  | .running k => pre k t.data
  | .waiting k => waits t.data ∧ ∀ s, pre k s
  | .notified k => ∀ s, pre k s
  | .exited => True

section Waits

variable {w : Worker σ κ π} {pre : κ → σ → Prop} {waits : σ → Prop} {t : Loop σ κ}

theorem Asserts.notify (h : Asserts pre waits t) : Asserts pre waits t.notify := by
  obtain ⟨data, thread, go, stopping⟩ := t
  cases thread with
  | running k => exact h
  | waiting k => exact h.2
  | notified k => exact h
  | exited => trivial

theorem Asserts.stopping (h : Asserts pre waits t) (go : Bool) (stopping : Stopping) :
    Asserts pre waits { t with go := go, stopping := stopping } := h

theorem Asserts.sleeps (h : Asserts pre waits t) : Sleeps waits t := by
  intro k hk
  unfold Asserts at h
  rw [hk] at h
  exact h.1

theorem Annotated.work (h : Annotated w pre waits) (ht : Asserts pre waits t) :
    Asserts pre waits (w.work t) := by
  obtain ⟨data, thread, go, stopping⟩ := t
  cases thread with
  | running k =>
    have hpre : pre k data := ht
    change Asserts pre waits ⟨(w.next go data k).1, (w.next go data k).2.thread, go, stopping⟩
    have hnext : Meets pre _ (w.next go data k) := h.next hpre
    rcases he : w.next go data k with ⟨s', k' | k' | _⟩
    · rw [he] at hnext
      exact hnext
    · rw [he] at hnext
      exact hnext
    · trivial
  | waiting k => exact ht
  | notified k => exact ht data
  | exited => exact ht

theorem Annotated.disturb (h : Annotated w pre waits) (ht : Asserts pre waits t) (p : π) :
    Asserts pre waits (w.disturb t p) := by
  unfold Worker.disturb
  split
  · rename_i hfree
    obtain ⟨data, thread, go, stopping⟩ := t
    cases thread with
    | running k =>
      have hkept := h.stable (p := p) (by simpa [Worker.free] using hfree) ht
      dsimp only
      split <;> exact hkept
    | waiting k =>
      obtain ⟨hwaits, hpre⟩ := ht
      dsimp only at hwaits ⊢
      split
      · exact hpre
      · rename_i hquiet
        exact ⟨h.silent hwaits (by simpa using hquiet), hpre⟩
    | notified k =>
      dsimp only
      split <;> exact ht
    | exited =>
      dsimp only
      split <;> exact ht
  · exact ht

theorem Annotated.step (h : Annotated w pre waits) (ht : Asserts pre waits t) (e : Event π) :
    Asserts pre waits (w.step t e) := by
  cases e with
  | work => exact h.work ht
  | interfere p => exact h.disturb ht p
  | stop =>
    unfold Worker.step Worker.stop
    dsimp only
    split
    · exact ht.stopping false .stored
    · split
      · split
        · exact ht.stopping t.go .fenced
        · exact ht
      · exact (ht.notify.stopping t.go .issued)
    · exact (ht.notify.stopping t.go .issued)
    · exact ht
  | wakeup => exact ht.notify

/-- No wait goes on that others have ended. -/
theorem Annotated.sleeps (h : Annotated w pre waits) {s : σ} {k : κ} (hs : pre k s)
    (es : List (Event π)) : Throughout w.step (Sleeps waits) (Loop.start s k) es := by
  rw [throughout_iff_start]
  intro ds _
  have hrun : Asserts pre waits (run w.step (Loop.start s k) ds) :=
    run_keeps (I := Asserts pre waits) (fun _ e ht => h.step ht e) ds hs
  exact hrun.sleeps

end Waits

/-! ### The end of the loop -/

/-- Once the notification is out the thread does not wait. -/
def Released (t : Loop σ κ) : Prop := t.stopping = .issued → ∀ k, t.thread ≠ .waiting k

/-- With the flag cleared, a thread that is at a safe step does not come to wait. -/
structure Ends (w : Worker σ κ π) (safe : κ → σ → Prop) : Prop where
  next : ∀ {s k}, safe k s → Meets safe (fun _ _ => False) (w.next false s k)
  resume : ∀ go s k, Meets (fun _ _ => True) (fun k' _ => ∀ s, safe k' s) (w.next go s k)
  stable : ∀ {p s k}, w.holds k = false → safe k s → safe k (w.interfere p s).1

/-- The next step of the one who ends the loop is the notification. -/
def Worker.Issues (w : Worker σ κ π) (t : Loop σ κ) : Prop :=
  (t.stopping = .stored ∧ w.fences = false) ∨ t.stopping = .fenced

instance (w : Worker σ κ π) (t : Loop σ κ) : Decidable (w.Issues t) :=
  inferInstanceAs (Decidable (_ ∨ _))

/-- A thread that runs is at a safe step. -/
def Loop.Safe (safe : κ → σ → Prop) (t : Loop σ κ) : Prop :=
  match t.thread with
  | .running k => safe k t.data
  | _ => True

instance (safe : κ → σ → Prop) [∀ k s, Decidable (safe k s)] (t : Loop σ κ) :
    Decidable (t.Safe safe) :=
  match t with
  | ⟨s, .running k, _, _⟩ => inferInstanceAs (Decidable (safe k s))
  | ⟨_, .waiting _, _, _⟩ => .isTrue trivial
  | ⟨_, .notified _, _, _⟩ => .isTrue trivial
  | ⟨_, .exited, _, _⟩ => .isTrue trivial

/-- It is, when it is notified. -/
def Timely (w : Worker σ κ π) (safe : κ → σ → Prop) (t : Loop σ κ) : Event π → Prop
  | .stop => w.Issues t → t.Safe safe
  | _ => True

instance (w : Worker σ κ π) (safe : κ → σ → Prop) [∀ k s, Decidable (safe k s)] (t : Loop σ κ) :
    (e : Event π) → Decidable (Timely w safe t e)
  | .stop => inferInstanceAs (Decidable (w.Issues t → t.Safe safe))
  | .work => .isTrue trivial
  | .interfere _ => .isTrue trivial
  | .wakeup => .isTrue trivial

structure Ending (safe : κ → σ → Prop) (t : Loop σ κ) : Prop where
  flag : t.stopping ≠ .idle → t.go = false
  resumed : ∀ k, t.thread = .waiting k ∨ t.thread = .notified k → ∀ s, safe k s
  running : t.stopping = .issued → ∀ k, t.thread = .running k → safe k t.data
  released : Released t

section Ends

variable {w : Worker σ κ π} {safe : κ → σ → Prop} {t : Loop σ κ}

theorem Loop.Safe.running (h : t.Safe safe) {k : κ} (hk : t.thread = .running k) :
    safe k t.data := by
  unfold Loop.Safe at h
  rwa [hk] at h

theorem notify_waiting {thread : Thread κ} (k : κ) : thread.notify ≠ .waiting k := by
  cases thread <;> simp [Thread.notify]

theorem notify_running {thread : Thread κ} {k : κ} (h : thread.notify = .running k) :
    thread = .running k := by
  cases thread <;> simp_all [Thread.notify]

theorem notify_resumed {thread : Thread κ} {k : κ} (h : thread.notify = .notified k) :
    thread = .waiting k ∨ thread = .notified k := by
  cases thread <;> simp_all [Thread.notify]

/-- A notification, and perhaps a step of the one who ends the loop. -/
theorem Ending.notify (h : Ending safe t) {stopping : Stopping}
    (hflag : stopping ≠ .idle → t.go = false)
    (hsafe : stopping = .issued → ∀ k, t.thread = .running k → safe k t.data) :
    Ending safe { t with thread := t.thread.notify, stopping := stopping } where
  flag := hflag
  resumed k hk := h.resumed k (notify_resumed (hk.resolve_left (notify_waiting k)))
  running hi k hk := hsafe hi k (notify_running hk)
  released _ k := notify_waiting k

theorem Ends.work (h : Ends w safe) (ht : Ending safe t) : Ending safe (w.work t) := by
  obtain ⟨data, thread, go, stopping⟩ := t
  cases thread with
  | running k =>
    change Ending safe ⟨(w.next go data k).1, (w.next go data k).2.thread, go, stopping⟩
    have hgo : stopping = .issued → go = false := fun hi => ht.flag (by rw [hi]; simp)
    have hresume := h.resume go data k
    rcases he : w.next go data k with ⟨s', k' | k' | _⟩
    · refine ⟨ht.flag, fun _ hk => by simp [Outcome.thread] at hk, fun hi j hj => ?_,
        fun _ j hj => by simp [Outcome.thread] at hj⟩
      obtain rfl : k' = j := by simpa [Outcome.thread] using hj
      have hnext := h.next (ht.running hi k rfl)
      rw [hgo hi] at he
      rw [he] at hnext
      exact hnext
    · refine ⟨ht.flag, fun j hj s => ?_, fun _ j hj => by simp [Outcome.thread] at hj,
        fun hi _ _ => ?_⟩
      · obtain rfl : k' = j := by simpa [Outcome.thread] using hj
        rw [he] at hresume
        exact hresume s
      · have hnext := h.next (ht.running hi k rfl)
        rw [hgo hi] at he
        rw [he] at hnext
        exact hnext
    · exact ⟨ht.flag, fun _ hk => by simp [Outcome.thread] at hk,
        fun _ _ hk => by simp [Outcome.thread] at hk, fun _ _ hk => by simp [Outcome.thread] at hk⟩
  | waiting k => exact ht
  | notified k =>
    refine ⟨ht.flag, fun _ hk => by simp [Worker.work] at hk, fun _ j hj => ?_,
      fun _ j hj => by simp [Worker.work] at hj⟩
    obtain rfl : k = j := by simpa [Worker.work] using hj
    exact ht.resumed k (.inr rfl) data
  | exited => exact ht

theorem Ends.disturb (h : Ends w safe) (ht : Ending safe t) (p : π) :
    Ending safe (w.disturb t p) := by
  unfold Worker.disturb
  split
  · rename_i hfree
    have hkept : Ending safe { t with data := (w.interfere p t.data).1 } := by
      refine ⟨ht.flag, ht.resumed, fun hi k hk => ?_, ht.released⟩
      refine h.stable ?_ (ht.running hi k hk)
      unfold Worker.free at hfree
      rw [show t.thread = .running k from hk] at hfree
      simpa using hfree
    split
    · exact hkept.notify ht.flag hkept.running
    · exact hkept
  · exact ht

theorem Ending.step (h : Ends w safe) (ht : Ending safe t) {e : Event π} (hc : Timely w safe t e) :
    Ending safe (w.step t e) := by
  cases e with
  | work => exact h.work ht
  | interfere p => exact h.disturb ht p
  | stop =>
    unfold Worker.step Worker.stop
    dsimp only
    split
    · rename_i hs
      exact ⟨fun _ => rfl, ht.resumed, fun hi => by simp at hi, fun hi => by simp at hi⟩
    · rename_i hs
      have hgo : t.go = false := ht.flag (by rw [hs]; simp)
      split
      · split
        · exact ⟨fun _ => hgo, ht.resumed, fun hi => by simp at hi, fun hi => by simp at hi⟩
        · exact ht
      · rename_i hf
        exact ht.notify (fun _ => hgo) fun _ _ => (hc (.inl ⟨hs, by simpa using hf⟩)).running
    · rename_i hs
      have hgo : t.go = false := ht.flag (by rw [hs]; simp)
      exact ht.notify (fun _ => hgo) fun _ _ => (hc (.inr hs)).running
    · exact ht
  | wakeup => exact ht.notify ht.flag ht.running

end Ends

/-! ### The thread gets to its end -/

/-- Unless it exits, what a thread does from a safe step decreases `rank`, or
what one of the `own` others does. -/
structure Descends {ρ : Type*} [LT ρ] (w : Worker σ κ π) (safe : κ → σ → Prop)
    (own : π → Prop) (rank : κ → σ → ρ) : Prop where
  next : ∀ {s k}, safe k s →
    Meets (fun k' s' => rank k' s' < rank k s) (fun _ _ => False) (w.next false s k) ∨
      ∃ p, own p ∧ w.holds k = false ∧ rank k (w.interfere p s).1 < rank k s

/-- A step of the thread, or one it relies on. -/
def Own (own : π → Prop) : Event π → Prop
  | .work => True
  | .interfere p => own p
  | _ => False

/-- Once the notification is out the thread gets to its end, by steps of its own
and those it relies on. -/
def Joinable (w : Worker σ κ π) (own : π → Prop) (t : Loop σ κ) : Prop :=
  t.stopping = .issued → ∃ ds, (∀ e ∈ ds, Own own e) ∧ (run w.step t ds).thread = .exited

section Joins

variable {ρ : Type*} [Preorder ρ] [WellFoundedLT ρ]
variable {w : Worker σ κ π} {safe : κ → σ → Prop} {own : π → Prop} {rank : κ → σ → ρ}
variable {t : Loop σ κ}

theorem Descends.exits (hd : Descends w safe own rank) (h : Ends w safe) {s : σ} {k : κ}
    (stopping : Stopping) (hs : safe k s) :
    ∃ ds, (∀ e ∈ ds, Own own e) ∧
      (run w.step ⟨s, .running k, false, stopping⟩ ds).thread = .exited := by
  induction hr : rank k s using WellFoundedLT.induction generalizing s k with
  | ind r ih =>
    subst hr
    rcases hd.next hs with hwork | ⟨p, hp, hfree, hless⟩
    · -- The thread's own step.
      have hnext := h.next hs
      have hstep : w.step ⟨s, .running k, false, stopping⟩ .work =
        ⟨(w.next false s k).1, (w.next false s k).2.thread, false, stopping⟩ := rfl
      rcases he : w.next false s k with ⟨s', k' | k' | _⟩
      · rw [he] at hwork hnext hstep
        obtain ⟨ds, hown, hexit⟩ := ih _ hwork hnext rfl
        refine ⟨.work :: ds, List.forall_mem_cons.mpr ⟨trivial, hown⟩, ?_⟩
        rw [run_cons, hstep]
        exact hexit
      · rw [he] at hnext
        exact hnext.elim
      · rw [he] at hstep
        refine ⟨[.work], by simp [Own], ?_⟩
        rw [run_cons, hstep]
        rfl
    · -- A step it relies on, which leaves it where it is.
      have hstep : w.step ⟨s, .running k, false, stopping⟩ (.interfere p) =
          ⟨(w.interfere p s).1, .running k, false, stopping⟩ := by
        unfold Worker.step Worker.disturb
        dsimp only
        rw [if_pos (by simp [Worker.free, hfree])]
        simp [Thread.notify]
      obtain ⟨ds, hown, hexit⟩ := ih _ hless (h.stable hfree hs) rfl
      refine ⟨.interfere p :: ds, List.forall_mem_cons.mpr ⟨hp, hown⟩, ?_⟩
      rw [run_cons, hstep]
      exact hexit

theorem Ending.joinable (hd : Descends w safe own rank) (h : Ends w safe) (ht : Ending safe t) :
    Joinable w own t := by
  intro hi
  obtain ⟨data, thread, go, stopping⟩ := t
  obtain rfl : go = false := ht.flag (by rw [hi]; simp)
  cases thread with
  | running k => exact hd.exits h _ (ht.running hi k rfl)
  | waiting k => exact absurd rfl (ht.released hi k)
  | notified k =>
    obtain ⟨ds, hown, hexit⟩ := hd.exits h stopping (ht.resumed k (.inr rfl) data)
    exact ⟨.work :: ds, List.forall_mem_cons.mpr ⟨trivial, hown⟩, hexit⟩
  | exited => exact ⟨[], by simp, rfl⟩

/-- In a run whose notification finds the thread waiting or at a safe step, the
thread does not wait any more, and gets to its end. -/
theorem Ends.released (h : Ends w safe) (hd : Descends w safe own rank) {s : σ} {k : κ}
    {es : List (Event π)} (hc : Along w.step (Timely w safe) (Loop.start s k) es) :
    Throughout w.step (fun t => Released t ∧ Joinable w own t) (Loop.start s k) es := by
  have hstart : Ending safe (Loop.start s k) :=
    ⟨fun hi => absurd rfl hi, fun _ hk => by simp [Loop.start] at hk,
      fun hi => by simp [Loop.start] at hi, fun hi => by simp [Loop.start] at hi⟩
  have hall := throughout_of_along (I := Ending safe) (fun _ _ ht hc => ht.step h hc) hstart hc
  rw [throughout_iff_start] at hall ⊢
  exact fun ds hds => ⟨(hall ds hds).released, (hall ds hds).joinable hd h⟩

end Joins

end WaitLoop
