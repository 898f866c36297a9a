import Mathlib

set_option autoImplicit false

/-!
# Machines fed one symbol at a time

A machine reads a symbol, changes state and may emit. Feeding a stream in
pieces is feeding it at once, which is what makes the chunking of a stream
invisible to the reader.
-/
namespace StreamMachine

variable {σ α β : Type*}

def feed (step : σ → α → σ × List β) : σ → List α → σ × List β
  | s, [] => (s, [])
  | s, a :: as =>
    ((feed step (step s a).1 as).1, (step s a).2 ++ (feed step (step s a).1 as).2)

@[simp] theorem feed_nil (step : σ → α → σ × List β) (s : σ) : feed step s [] = (s, []) := rfl

@[simp] theorem feed_single (step : σ → α → σ × List β) (s : σ) (a : α) :
    feed step s [a] = step s a := by
  simp [feed]

theorem feed_append (step : σ → α → σ × List β) (s : σ) (as bs : List α) :
    feed step s (as ++ bs) =
      ((feed step (feed step s as).1 bs).1,
        (feed step s as).2 ++ (feed step (feed step s as).1 bs).2) := by
  induction as generalizing s with
  | nil => simp [feed]
  | cons a as ih => simp only [List.cons_append, feed, ih, List.append_assoc]

/-- What has been emitted so far is never taken back. -/
theorem feed_prefix (step : σ → α → σ × List β) (s : σ) (as bs : List α) :
    (feed step s as).2 <+: (feed step s (as ++ bs)).2 := by
  rw [feed_append]
  exact List.prefix_append _ _

/-- A symbol the machine ignores in its present state may be left out. -/
theorem feed_skip {step : σ → α → σ × List β} {s : σ} {a : α} (h : step s a = (s, []))
    (as : List α) : feed step s (a :: as) = feed step s as := by
  simp [feed, h]

/-- Words each of which brings the machine back to `s` emit what they emit one
after the other. -/
theorem feed_words {γ : Type*} {step : σ → α → σ × List β} {s : σ} (word : γ → List α)
    (emit : γ → β) (cs : List γ) (h : ∀ c ∈ cs, feed step s (word c) = (s, [emit c])) :
    feed step s (cs.flatMap word) = (s, cs.map emit) := by
  induction cs with
  | nil => rfl
  | cons c cs ih =>
    have hc := h c (List.mem_cons_self)
    have ht := ih fun d hd => h d (List.mem_cons_of_mem c hd)
    simp only [List.flatMap_cons, feed_append, hc, ht, List.singleton_append, List.map_cons]

end StreamMachine
