import Mathlib

set_option autoImplicit false

/-!
# Runs of a deterministic machine

`step s e` is the state after event `e`. A property is asked of every state a
run visits, a condition of every step it takes in the state before the step.
-/
namespace Machine

variable {σ τ ε ο : Type*}

def run (step : σ → ε → σ) (s : σ) (es : List ε) : σ := es.foldl step s

@[simp] theorem run_nil (step : σ → ε → σ) (s : σ) : run step s [] = s := rfl

@[simp] theorem run_cons (step : σ → ε → σ) (s : σ) (e : ε) (es : List ε) :
    run step s (e :: es) = run step (step s e) es := rfl

theorem run_append (step : σ → ε → σ) (s : σ) (es ds : List ε) :
    run step s (es ++ ds) = run step (run step s es) ds := List.foldl_append

/-- `P` holds in every state the run visits, the first and the last included. -/
def Throughout (step : σ → ε → σ) (P : σ → Prop) : σ → List ε → Prop
  | s, [] => P s
  | s, e :: es => P s ∧ Throughout step P (step s e) es

/-- `C` holds of every step of the run, read in the state before it. -/
def Along (step : σ → ε → σ) (C : σ → ε → Prop) : σ → List ε → Prop
  | _, [] => True
  | s, e :: es => C s e ∧ Along step C (step s e) es

instance decidableAlong (step : σ → ε → σ) (C : σ → ε → Prop) [∀ s e, Decidable (C s e)] :
    (s : σ) → (es : List ε) → Decidable (Along step C s es)
  | _, [] => .isTrue trivial
  | s, e :: es =>
    have := decidableAlong step C (step s e) es
    inferInstanceAs (Decidable (C s e ∧ Along step C (step s e) es))

instance decidableThroughout (step : σ → ε → σ) (P : σ → Prop) [∀ s, Decidable (P s)] :
    (s : σ) → (es : List ε) → Decidable (Throughout step P s es)
  | s, [] => inferInstanceAs (Decidable (P s))
  | s, e :: es =>
    have := decidableThroughout step P (step s e) es
    inferInstanceAs (Decidable (P s ∧ Throughout step P (step s e) es))

theorem Throughout.first {step : σ → ε → σ} {P : σ → Prop} {s : σ} {es : List ε}
    (h : Throughout step P s es) : P s := by
  cases es with
  | nil => exact h
  | cons e es => exact h.1

theorem Throughout.last {step : σ → ε → σ} {P : σ → Prop} {s : σ} {es : List ε}
    (h : Throughout step P s es) : P (run step s es) := by
  induction es generalizing s with
  | nil => exact h
  | cons e es ih => exact ih h.2

theorem throughout_iff_start (step : σ → ε → σ) (P : σ → Prop) (s : σ) (es : List ε) :
    Throughout step P s es ↔ ∀ ds, ds <+: es → P (run step s ds) := by
  induction es generalizing s with
  | nil => simp [Throughout]
  | cons e es ih =>
    constructor
    · rintro ⟨hs, ht⟩ ds hd
      cases ds with
      | nil => exact hs
      | cons d ds =>
        obtain ⟨rfl, hp⟩ := List.cons_prefix_cons.mp hd
        exact (ih (step s d)).mp ht ds hp
    · intro h
      refine ⟨h [] (List.nil_prefix), (ih (step s e)).mpr fun ds hd => ?_⟩
      exact h (e :: ds) (List.cons_prefix_cons.mpr ⟨rfl, hd⟩)

theorem along_append (step : σ → ε → σ) (C : σ → ε → Prop) (s : σ) (es ds : List ε) :
    Along step C s (es ++ ds) ↔ Along step C s es ∧ Along step C (run step s es) ds := by
  induction es generalizing s with
  | nil => simp [Along]
  | cons e es ih => simp only [List.cons_append, Along, run_cons, ih, and_assoc]

theorem Along.take {step : σ → ε → σ} {C : σ → ε → Prop} {s : σ} {es ds : List ε}
    (h : Along step C s es) (hd : ds <+: es) : Along step C s ds := by
  obtain ⟨rest, rfl⟩ := hd
  exact ((along_append step C s ds rest).mp h).1

/-- The invariant rule: what holds at the start and survives every step that
meets `C` holds in every state of a run whose steps all meet `C`. -/
theorem throughout_of_along {step : σ → ε → σ} {I : σ → Prop} {C : σ → ε → Prop}
    (keep : ∀ s e, I s → C s e → I (step s e)) {s : σ} {es : List ε}
    (hs : I s) (h : Along step C s es) : Throughout step I s es := by
  induction es generalizing s with
  | nil => exact hs
  | cons e es ih => exact ⟨hs, ih (keep s e hs h.1) h.2⟩

theorem run_invariant {step : σ → ε → σ} {I : σ → Prop} {C : σ → ε → Prop}
    (keep : ∀ s e, I s → C s e → I (step s e)) {s : σ} {es : List ε}
    (hs : I s) (h : Along step C s es) : I (run step s es) :=
  (throughout_of_along keep hs h).last

theorem along_true (step : σ → ε → σ) (s : σ) (es : List ε) :
    Along step (fun _ _ => True) s es := by
  induction es generalizing s with
  | nil => trivial
  | cons e es ih => exact ⟨trivial, ih _⟩

/-- The unconditional form: an invariant of every step is one of every run. -/
theorem run_keeps {step : σ → ε → σ} {I : σ → Prop} (keep : ∀ s e, I s → I (step s e))
    {s : σ} (es : List ε) (hs : I s) : I (run step s es) :=
  run_invariant (fun s e h _ => keep s e h) hs (along_true step s es)

/-- A condition on the events alone is met along a run when every event meets it. -/
theorem along_iff_mem (step : σ → ε → σ) {Q : ε → Prop} (s : σ) (es : List ε) :
    Along step (fun _ e => Q e) s es ↔ ∀ e ∈ es, Q e := by
  induction es generalizing s with
  | nil => simp [Along]
  | cons e es ih => simp only [Along, ih, List.forall_mem_cons]

theorem along_of_mem (step : σ → ε → σ) {Q : ε → Prop} (s : σ) {es : List ε}
    (h : ∀ e ∈ es, Q e) : Along step (fun _ e => Q e) s es := (along_iff_mem step s es).mpr h

theorem Along.imp {step : σ → ε → σ} {C D : σ → ε → Prop} {s : σ} {es : List ε}
    (h : Along step C s es) (himp : ∀ s e, C s e → D s e) : Along step D s es := by
  induction es generalizing s with
  | nil => trivial
  | cons e es ih => exact ⟨himp s e h.1, ih h.2⟩

theorem Along.and {step : σ → ε → σ} {C D : σ → ε → Prop} {s : σ} {es : List ε}
    (h : Along step C s es) (h' : Along step D s es) :
    Along step (fun s e => C s e ∧ D s e) s es := by
  induction es generalizing s with
  | nil => trivial
  | cons e es ih => exact ⟨⟨h.1, h'.1⟩, ih h.2 h'.2⟩

/-- What an invariant says of every step is met along every run. -/
theorem along_of_invariant {step : σ → ε → σ} {I : σ → Prop} {C : σ → ε → Prop}
    (keep : ∀ s e, I s → I (step s e)) (meets : ∀ s e, I s → C s e) {s : σ} (es : List ε)
    (hs : I s) : Along step C s es := by
  induction es generalizing s with
  | nil => trivial
  | cons e es ih => exact ⟨meets s e hs, ih (keep s e hs)⟩

/-- When `C` is exactly what one step that meets `D` needs to keep `P`, a run that
meets `D` keeps `P` throughout exactly when `C` holds along it. -/
theorem throughout_iff_along_of_along {step : σ → ε → σ} {I P : σ → Prop} {C D : σ → ε → Prop}
    (keep : ∀ s e, I s → P s → D s e → C s e → I (step s e))
    (exact : ∀ s e, I s → P s → D s e → (P (step s e) ↔ C s e)) {s : σ} {es : List ε}
    (hd : Along step D s es) (hi : I s) (hp : P s) :
    Throughout step P s es ↔ Along step C s es := by
  induction es generalizing s with
  | nil => simp [Throughout, Along, hp]
  | cons e es ih =>
    obtain ⟨he, hes⟩ := hd
    simp only [Throughout, Along, hp, true_and]
    constructor
    · intro h
      have hc : C s e := (exact s e hi hp he).mp h.first
      exact ⟨hc, (ih hes (keep s e hi hp he hc) h.first).mp h⟩
    · rintro ⟨hc, h⟩
      exact (ih hes (keep s e hi hp he hc) ((exact s e hi hp he).mpr hc)).mpr h

theorem throughout_iff_along_of_mem {step : σ → ε → σ} {I P : σ → Prop} {C : σ → ε → Prop}
    {Q : ε → Prop} (keep : ∀ s e, I s → P s → Q e → C s e → I (step s e))
    (exact : ∀ s e, I s → P s → Q e → (P (step s e) ↔ C s e)) {s : σ} {es : List ε}
    (hq : ∀ e ∈ es, Q e) (hi : I s) (hp : P s) :
    Throughout step P s es ↔ Along step C s es :=
  throughout_iff_along_of_along keep exact (along_of_mem step s hq) hi hp

theorem throughout_iff_along {step : σ → ε → σ} {I P : σ → Prop} {C : σ → ε → Prop}
    (keep : ∀ s e, I s → P s → C s e → I (step s e))
    (exact : ∀ s e, I s → P s → (P (step s e) ↔ C s e)) {s : σ} {es : List ε}
    (hi : I s) (hp : P s) : Throughout step P s es ↔ Along step C s es :=
  throughout_iff_along_of_mem (Q := fun _ => True) (fun s e hi hp _ => keep s e hi hp)
    (fun s e hi hp _ => exact s e hi hp) (fun _ _ => trivial) hi hp

/-- A part of the state that steps by itself. -/
theorem run_part {step : σ → ε → σ} {part : τ → ε → τ} {f : σ → τ}
    (hf : ∀ s e, f (step s e) = part (f s) e) (s : σ) (es : List ε) :
    f (run step s es) = run part (f s) es := by
  induction es generalizing s with
  | nil => rfl
  | cons e es ih => rw [run_cons, run_cons, ih, hf]

theorem along_part {step : σ → ε → σ} {part : τ → ε → τ} {f : σ → τ}
    (hf : ∀ s e, f (step s e) = part (f s) e) {C : τ → ε → Prop} {s : σ} {es : List ε} :
    Along step (fun s e => C (f s) e) s es ↔ Along part C (f s) es := by
  induction es generalizing s with
  | nil => exact Iff.rfl
  | cons e es ih => simp only [Along, ih, hf]

/-- What a run reports, one report a step. -/
def observe (step : σ → ε → σ × ο) : σ → List ε → List ο
  | _, [] => []
  | s, e :: es => (step s e).2 :: observe step (step s e).1 es

/-- Exact simulation: under `C` related states report the same and stay
related, outside it the reports differ, so two runs report the same exactly
when `C` holds along the first. -/
theorem observe_eq_iff {step : σ → ε → σ × ο} {spec : τ → ε → τ × ο}
    {R : σ → τ → Prop} {C : σ → ε → Prop}
    (agree : ∀ s t e, R s t → C s e →
      (step s e).2 = (spec t e).2 ∧ R (step s e).1 (spec t e).1)
    (differ : ∀ s t e, R s t → ¬ C s e → (step s e).2 ≠ (spec t e).2)
    {s : σ} {t : τ} (es : List ε) (h : R s t) :
    observe step s es = observe spec t es ↔ Along (fun s e => (step s e).1) C s es := by
  induction es generalizing s t with
  | nil => simp [observe, Along]
  | cons e es ih =>
    simp only [observe, Along, List.cons.injEq]
    by_cases hc : C s e
    · obtain ⟨ho, hr⟩ := agree s t e h hc
      simp only [ho, hc, true_and, ih hr]
    · simp only [hc, false_and, iff_false, not_and]
      exact fun ho => absurd ho (differ s t e h hc)

end Machine
