import LedServer.Machine

set_option autoImplicit false

/-!
# A queue of register transfers

Requests to write or to read consecutive registers are served in order and byte
by byte, while others are queued and the registers change on their own account.
Where they do not, serving a queue comes to carrying out each request at once.
-/
namespace RegisterQueue

variable {A V T W : Type*}

inductive Request (A V T : Type*) where
  | write (reg : A) (data : List V)
  | read (tag : T) (reg : A) (len : ℕ)
deriving DecidableEq

/-- What is still to be done of the request that is being served. -/
inductive Transfer (A V T : Type*) where
  | rest
  | writing (reg : A) (data : List V)
  | reading (tag : T) (got : List V) (reg : A) (left : ℕ)
deriving DecidableEq

def Request.opened : Request A V T → Transfer A V T
  | .write reg data => .writing reg data
  | .read tag reg len => .reading tag [] reg len

/-- Nothing of it is left. -/
def Transfer.Whole : Transfer A V T → Prop
  | .rest => True
  | .writing _ data => data = []
  | .reading _ _ _ left => left = 0

/-- The registers, and what has been made of those that were read. -/
structure Files (A V T W : Type*) where
  regs : A → V
  sink : W
  pending : List (Request A V T)
  current : Transfer A V T

inductive Event (A V T : Type*) where
  | request (request : Request A V T)
  | begin
  | byte
  | finish (ok : Bool)
  | tick (regs : A → V)

section

variable [DecidableEq A] (next : A → A)

def storeAll (regs : A → V) (reg : A) : List V → A → V
  | [] => regs
  | v :: data => storeAll (Function.update regs reg v) (next reg) data

def fetchAll (regs : A → V) (reg : A) : ℕ → List V
  | 0 => []
  | n + 1 => regs reg :: fetchAll regs (next reg) n

variable (receive : W → T → List V → W)

/-- One more byte is moved. -/
def Files.byte (f : Files A V T W) : Files A V T W :=
  match f.current with
  | .writing reg (v :: data) =>
    { f with regs := Function.update f.regs reg v, current := .writing (next reg) data }
  | .reading tag got reg (left + 1) =>
    { f with current := .reading tag (got ++ [f.regs reg]) (next reg) left }
  | _ => f

/-- What has been read is handed on. -/
def Files.finish (f : Files A V T W) (ok : Bool) : Files A V T W :=
  match f.current, ok with
  | .reading tag got _ _, true => { f with sink := receive f.sink tag got, current := .rest }
  | _, _ => { f with current := .rest }

def step (f : Files A V T W) : Event A V T → Files A V T W
  | .request request => { f with pending := f.pending ++ [request] }
  | .begin =>
    match f.pending with
    | [] => f
    | request :: pending => { f with pending := pending, current := request.opened }
  | .byte => f.byte next
  | .finish ok => f.finish receive ok
  | .tick regs => { f with regs := regs }

/-! ### Requests carried out at once -/

def complete (now : (A → V) × W) : Transfer A V T → (A → V) × W
  | .rest => now
  | .writing reg data => (storeAll next now.1 reg data, now.2)
  | .reading tag got reg left => (now.1, receive now.2 tag (got ++ fetchAll next now.1 reg left))

def exec (now : (A → V) × W) (request : Request A V T) : (A → V) × W :=
  complete next receive now request.opened

/-- What the registers and the sink come to once all there is to do is done. -/
def settle (f : Files A V T W) : (A → V) × W :=
  f.pending.foldl (exec next receive) (complete next receive (f.regs, f.sink) f.current)

/-- No event but those of a transfer that succeeds. -/
def Fine (f : Files A V T W) : Event A V T → Prop
  | .request _ => True
  | .begin => f.current = .rest
  | .byte => True
  | .finish ok => ok = true ∧ f.current.Whole
  | .tick _ => False

/-- The requests among the events. -/
def requests (es : List (Event A V T)) : List (Request A V T) :=
  es.filterMap fun e => match e with
    | .request request => some request
    | _ => none

theorem complete_byte (f : Files A V T W) :
    complete next receive ((f.byte next).regs, (f.byte next).sink) (f.byte next).current =
      complete next receive (f.regs, f.sink) f.current ∧ (f.byte next).pending = f.pending := by
  unfold Files.byte
  cases hcurrent : f.current with
  | rest => simp only [hcurrent, and_self]
  | writing reg data =>
    cases data with
    | nil => simp only [hcurrent, and_self]
    | cons v data => exact ⟨rfl, rfl⟩
  | reading tag got reg left =>
    cases left with
    | zero => simp only [hcurrent, and_self]
    | succ left =>
      refine ⟨?_, rfl⟩
      simp only [complete, fetchAll, List.append_assoc, List.singleton_append]

theorem complete_finish {f : Files A V T W} (h : f.current.Whole) :
    complete next receive ((f.finish receive true).regs, (f.finish receive true).sink)
        (f.finish receive true).current = complete next receive (f.regs, f.sink) f.current ∧
      (f.finish receive true).pending = f.pending := by
  unfold Files.finish
  cases hcurrent : f.current with
  | rest => exact ⟨rfl, rfl⟩
  | writing reg data =>
    rw [hcurrent] at h
    cases h
    exact ⟨rfl, rfl⟩
  | reading tag got reg left =>
    rw [hcurrent] at h
    cases h
    exact ⟨by simp only [complete, fetchAll, List.append_nil], rfl⟩

/-- A step of a transfer leaves what it will all come to. -/
theorem settle_step {f : Files A V T W} {e : Event A V T} (h : Fine f e) :
    settle next receive (step next receive f e) =
      (requests [e]).foldl (exec next receive) (settle next receive f) := by
  unfold settle
  cases e with
  | request request => simp only [step, List.foldl_append]; rfl
  | begin =>
    change f.current = .rest at h
    unfold step
    cases hpending : f.pending with
    | nil => simp only [hpending]; rfl
    | cons request pending => simp only [h, List.foldl_cons]; rfl
  | byte =>
    obtain ⟨hcomplete, hpending⟩ := complete_byte next receive f
    simp only [step, hcomplete, hpending]
    rfl
  | finish ok =>
    obtain ⟨rfl, hwhole⟩ := h
    obtain ⟨hcomplete, hpending⟩ := complete_finish next receive hwhole
    simp only [step, hcomplete, hpending]
    rfl
  | tick regs => exact absurd h id

/-- So a run of them comes to the requests it has met, one after the other. -/
theorem settle_run {f : Files A V T W} {es : List (Event A V T)}
    (h : Machine.Along (step next receive) Fine f es) :
    settle next receive (Machine.run (step next receive) f es) =
      (requests es).foldl (exec next receive) (settle next receive f) := by
  induction es generalizing f with
  | nil => rfl
  | cons e es ih =>
    have happend : requests ([e] ++ es) = requests [e] ++ requests es := List.filterMap_append
    have hrequests : requests (e :: es) = requests [e] ++ requests es := happend
    rw [Machine.run_cons, ih h.2, settle_step next receive h.1, hrequests, List.foldl_append]

/-- With nothing left to do. -/
theorem settle_rest {f : Files A V T W} (hpending : f.pending = []) (hcurrent : f.current = .rest) :
    settle next receive f = (f.regs, f.sink) := by
  rw [settle, hpending, hcurrent]
  rfl

end

end RegisterQueue
