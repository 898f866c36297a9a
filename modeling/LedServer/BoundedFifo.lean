import Mathlib

set_option autoImplicit false

/-!
# The bounded first-in first-out queue

The purpose of a ring buffer, stated without one: a list that never outgrows
its capacity, filled at the end and drained at the front.
-/

structure BoundedFifo (α : Type*) (capacity : ℕ) where
  items : List α
  bounded : items.length ≤ capacity

namespace BoundedFifo

variable {α : Type*} {capacity : ℕ}

def empty : BoundedFifo α capacity := ⟨[], Nat.zero_le _⟩

def size (q : BoundedFifo α capacity) : ℕ := q.items.length

def space (q : BoundedFifo α capacity) : ℕ := capacity - q.items.length

/-- All of `xs` is taken, or nothing when it does not fit. -/
def fill (q : BoundedFifo α capacity) (xs : List α) : BoundedFifo α capacity × Bool :=
  if h : q.items.length + xs.length ≤ capacity then
    (⟨q.items ++ xs, by simpa using h⟩, true)
  else (q, false)

/-- The first `n` items, or nothing when fewer are held. -/
def drain (q : BoundedFifo α capacity) (n : ℕ) : BoundedFifo α capacity × Option (List α) :=
  if n ≤ q.items.length then
    (⟨q.items.drop n, by have := q.bounded; simp only [List.length_drop]; omega⟩,
      some (q.items.take n))
  else (q, none)

theorem fill_items {q : BoundedFifo α capacity} {xs : List α}
    (h : q.items.length + xs.length ≤ capacity) : (q.fill xs).1.items = q.items ++ xs := by
  simp [fill, h]

theorem fill_refused {q : BoundedFifo α capacity} {xs : List α}
    (h : ¬ q.items.length + xs.length ≤ capacity) : q.fill xs = (q, false) := by
  simp [fill, h]

theorem drain_items {q : BoundedFifo α capacity} {n : ℕ} (h : n ≤ q.items.length) :
    (q.drain n).1.items = q.items.drop n := by
  simp [drain, h]

theorem drain_refused {q : BoundedFifo α capacity} {n : ℕ} (h : ¬ n ≤ q.items.length) :
    q.drain n = (q, none) := by
  simp [drain, h]

end BoundedFifo
