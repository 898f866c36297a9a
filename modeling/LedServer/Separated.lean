import Mathlib

set_option autoImplicit false

/-!
# A list with separators

`List.splitOn` by what stands up to the first separator and behind it, which is
how a program that searches for the separator reads a list.
-/
namespace Separated

variable {α : Type*} [DecidableEq α] {a : α} {xs : List α}

theorem cut (h : a ∈ xs) : xs.takeWhile (· ≠ a) ++ a :: (xs.dropWhile (· ≠ a)).tail = xs := by
  induction xs with
  | nil => exact absurd h List.not_mem_nil
  | cons x xs ih =>
    by_cases hx : x = a
    · subst hx
      rw [List.takeWhile_cons_of_neg (by simp), List.dropWhile_cons_of_neg (by simp)]
      rfl
    · have hmem := (List.mem_cons.mp h).resolve_left (Ne.symm hx)
      rw [List.takeWhile_cons_of_pos (by simpa using hx),
        List.dropWhile_cons_of_pos (by simpa using hx), List.cons_append, ih hmem]

theorem dropWhile_cut (h : a ∈ xs) :
    xs.dropWhile (· ≠ a) = a :: (xs.dropWhile (· ≠ a)).tail := by
  have hwhole := List.takeWhile_append_dropWhile (p := (· ≠ a)) (l := xs)
  exact List.append_cancel_left (hwhole.trans (cut h).symm)

theorem behind_length (h : a ∈ xs) : ((xs.dropWhile (· ≠ a)).tail).length < xs.length := by
  have hlen := congrArg List.length (cut h)
  rw [List.length_append, List.length_cons] at hlen
  omega

theorem not_mem_front : a ∉ xs.takeWhile (· ≠ a) := fun hmem => by
  simpa using List.mem_takeWhile_imp hmem

/-- A list with a separator is its first field and the fields of what is behind. -/
theorem splitOn_cut (h : a ∈ xs) :
    xs.splitOn a = xs.takeWhile (· ≠ a) :: ((xs.dropWhile (· ≠ a)).tail).splitOn a := by
  have hfront : a ∉ xs.takeWhile (· ≠ a) := not_mem_front
  have hsplit := List.splitOn_append_cons_self_of_not_mem hfront (xs.dropWhile (· ≠ a)).tail
  rwa [cut h] at hsplit

/-- A list without one is its only field. -/
theorem takeWhile_uncut (h : a ∉ xs) : xs.takeWhile (· ≠ a) = xs ∧ xs.dropWhile (· ≠ a) = [] := by
  have hall : ∀ x ∈ xs, decide (x ≠ a) = true := fun x hx => by
    simp only [ne_eq, decide_not, Bool.not_eq_eq_eq_not, Bool.not_true, decide_eq_false_iff_not]
    rintro rfl
    exact h hx
  exact ⟨List.takeWhile_eq_self_iff.mpr hall, List.dropWhile_eq_nil_iff.mpr hall⟩

end Separated
