import Mathlib

set_option autoImplicit false

/-!
# Programs that write a port

A program is told by the values it writes to a register, one after the other.
A device on the register sees every change of it and may latch a symbol. The
rules say what a device latches while programs run in a row, and that it
latches nothing while a program leaves its pins alone.
-/
namespace PortProgram

variable {ρ α β γ : Type*}

/-- The values written, by the value the register has at the start. -/
abbrev Program (ρ : Type*) := ρ → List ρ

/-- The value the register is left with. -/
def final (r : ρ) (ws : List ρ) : ρ := ws.getLastD r

def modify (f : ρ → ρ) : Program ρ := fun r => [f r]

def seq (p q : Program ρ) : Program ρ := fun r => p r ++ q (final r (p r))

def each (body : α → Program ρ) : List α → Program ρ
  | [] => fun _ => []
  | x :: xs => seq (body x) (each body xs)

/-- What a device latches, one change of the register after the other. -/
def watch (latch : ρ → ρ → Option β) : ρ → List ρ → List β
  | _, [] => []
  | r, w :: ws => (latch r w).toList ++ watch latch w ws

/-- From every value that meets `P` the device latches `bs`, and the value left
meets `Q`. -/
def Latches (latch : ρ → ρ → Option β) (P : ρ → Prop) (p : Program ρ) (bs : List β)
    (Q : ρ → Prop) : Prop :=
  ∀ r, P r → watch latch r (p r) = bs ∧ Q (final r (p r))

/-- No value written differs in `key` from the one found. -/
def Leaves (key : ρ → γ) (p : Program ρ) : Prop := ∀ r, ∀ w ∈ p r, key w = key r

/-! ### In a row -/

@[simp] theorem final_nil (r : ρ) : final r [] = r := rfl

@[simp] theorem final_cons (r w : ρ) (ws : List ρ) : final r (w :: ws) = final w ws := by
  cases ws with
  | nil => rfl
  | cons v vs => rfl

theorem final_append (r : ρ) (ws vs : List ρ) : final r (ws ++ vs) = final (final r ws) vs := by
  induction ws generalizing r with
  | nil => rfl
  | cons w ws ih => rw [List.cons_append, final_cons, final_cons, ih]

theorem watch_append (latch : ρ → ρ → Option β) (r : ρ) (ws vs : List ρ) :
    watch latch r (ws ++ vs) = watch latch r ws ++ watch latch (final r ws) vs := by
  induction ws generalizing r with
  | nil => rfl
  | cons w ws ih => rw [List.cons_append, watch, watch, ih, final_cons, List.append_assoc]

variable {latch : ρ → ρ → Option β} {P Q R : ρ → Prop}

theorem latches_modify {f : ρ → ρ} {bs : List β} (h : ∀ r, P r → (latch r (f r)).toList = bs)
    (hq : ∀ r, P r → Q (f r)) : Latches latch P (modify f) bs Q := by
  intro r hr
  refine ⟨?_, hq r hr⟩
  simp only [modify, watch, h r hr, List.append_nil]

theorem Latches.seq {p q : Program ρ} {bs cs : List β} (hp : Latches latch P p bs Q)
    (hq : Latches latch Q q cs R) : Latches latch P (seq p q) (bs ++ cs) R := by
  intro r hr
  obtain ⟨hbs, hmid⟩ := hp r hr
  obtain ⟨hcs, hend⟩ := hq _ hmid
  unfold PortProgram.seq
  rw [watch_append, final_append, hbs, hcs]
  exact ⟨rfl, hend⟩

theorem Latches.each {body : α → Program ρ} {bits : α → List β} (xs : List α)
    (h : ∀ x ∈ xs, Latches latch P (body x) (bits x) P) :
    Latches latch P (each body xs) (xs.flatMap bits) P := by
  induction xs with
  | nil => exact fun r hr => ⟨rfl, hr⟩
  | cons x xs ih =>
    rw [List.flatMap_cons]
    exact (h x List.mem_cons_self).seq (ih fun y hy => h y (List.mem_cons_of_mem x hy))

theorem Latches.eq {p : Program ρ} {bs : List β} (h : Latches latch P p bs Q) {r : ρ} (hr : P r) :
    watch latch r (p r) = bs := (h r hr).1

/-! ### Pins left alone -/

variable {key : ρ → γ}

theorem leaves_modify {f : ρ → ρ} (h : ∀ r, key (f r) = key r) : Leaves key (modify f) := by
  intro r w hw
  rw [List.mem_singleton.mp hw, h]

theorem Leaves.final {p : Program ρ} (h : Leaves key p) (r : ρ) :
    key (final r (p r)) = key r := by
  cases hp : p r with
  | nil => rfl
  | cons w ws =>
    refine h r _ ?_
    rw [hp, PortProgram.final, List.getLastD_cons]
    exact List.getLastD_mem_cons

theorem Leaves.seq {p q : Program ρ} (hp : Leaves key p) (hq : Leaves key q) :
    Leaves key (seq p q) := by
  intro r w hw
  rcases List.mem_append.mp hw with h | h
  · exact hp r w h
  · rw [hq _ w h, hp.final]

theorem Leaves.each {body : α → Program ρ} (h : ∀ x, Leaves key (body x)) (xs : List α) :
    Leaves key (each body xs) := by
  induction xs with
  | nil => exact fun r w hw => absurd hw List.not_mem_nil
  | cons x xs ih => exact (h x).seq ih

theorem watch_eq_nil (hkey : ∀ r w, key w = key r → latch r w = none) {r : ρ} {ws : List ρ}
    (h : ∀ w ∈ ws, key w = key r) : watch latch r ws = [] := by
  induction ws generalizing r with
  | nil => rfl
  | cons w ws ih =>
    have hw : key w = key r := h w List.mem_cons_self
    have hrest : ∀ v ∈ ws, key v = key w := fun v hv => by
      rw [h v (List.mem_cons_of_mem w hv), hw]
    rw [watch, hkey r w hw, ih hrest]
    rfl

/-- The frame rule: nothing is latched, and what only `key` decides stays. -/
theorem Leaves.latches {p : Program ρ} (h : Leaves key p)
    (hkey : ∀ r w, key w = key r → latch r w = none) (F : γ → Prop) :
    Latches latch (fun r => F (key r)) p [] (fun r => F (key r)) := by
  intro r hr
  refine ⟨watch_eq_nil hkey (h r), ?_⟩
  change F (key (PortProgram.final r (p r)))
  rwa [h.final]

/-! ### Pins of a port -/

section Pins

variable {w : ℕ}

/-- One of the pins of `mask` is high at least. -/
def high (port mask : BitVec w) : Bool := port &&& mask != 0#w

@[simp] theorem high_clear (port mask : BitVec w) : high (port &&& ~~~mask) mask = false := by
  have h : port &&& ~~~mask &&& mask = 0#w := by
    ext i hi
    simp only [BitVec.getElem_and, BitVec.getElem_not, BitVec.getElem_zero]
    cases port[i] <;> cases mask[i] <;> rfl
  simp [high, h]

theorem high_set (port : BitVec w) {mask : BitVec w} (hm : mask ≠ 0#w) :
    high (port ||| mask) mask = true := by
  have h : (port ||| mask) &&& mask = mask := by
    ext i hi
    simp only [BitVec.getElem_and, BitVec.getElem_or]
    cases port[i] <;> cases mask[i] <;> rfl
  simp [high, h, hm]

theorem high_set_apart (port : BitVec w) {a b : BitVec w} (h : a &&& b = 0#w) :
    high (port ||| a) b = high port b := by
  have hb : (port ||| a) &&& b = port &&& b := by
    rw [BitVec.and_or_distrib_right, h, BitVec.or_zero]
  rw [high, high, hb]

theorem high_clear_apart (port : BitVec w) {a b : BitVec w} (h : a &&& b = 0#w) :
    high (port &&& ~~~a) b = high port b := by
  have hb : port &&& ~~~a &&& b = port &&& b := by
    ext i hi
    have hbit : (a &&& b)[i] = (0#w)[i] := by rw [h]
    simp only [BitVec.getElem_and, BitVec.getElem_not, BitVec.getElem_zero] at hbit ⊢
    revert hbit
    cases port[i] <;> cases a[i] <;> cases b[i] <;> simp
  rw [high, high, hb]

end Pins

end PortProgram
