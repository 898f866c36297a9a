import Mathlib

set_option autoImplicit false

/-!
# Rows of glyphs of one width

Each letter is drawn as the `w` columns of its glyph and a gap. A row is read
back cell by cell, up to the first that is no glyph.
-/
namespace GlyphRow

variable {α β : Type*} {glyph : α → List β} {gap : β} {decode : List β → Option α} {w : ℕ}

def write (glyph : α → List β) (gap : β) (letters : List α) : List β :=
  letters.flatMap fun a => glyph a ++ [gap]

/-- Of at most `n` cells. -/
def read (decode : List β → Option α) (w : ℕ) : ℕ → List β → List α
  | 0, _ => []
  | n + 1, columns =>
    match decode (columns.take w) with
    | some a => a :: read decode w n (columns.drop (w + 1))
    | none => []

@[simp] theorem write_nil : write glyph gap [] = [] := rfl

@[simp] theorem write_cons (a : α) (letters : List α) :
    write glyph gap (a :: letters) = glyph a ++ gap :: write glyph gap letters := by
  simp [write]

theorem write_append (letters letters' : List α) :
    write glyph gap (letters ++ letters') =
      write glyph gap letters ++ write glyph gap letters' := List.flatMap_append

theorem write_length {letters : List α} (hw : ∀ a ∈ letters, (glyph a).length = w) :
    (write glyph gap letters).length = (w + 1) * letters.length := by
  induction letters with
  | nil => rfl
  | cons a letters ih =>
    rw [write_cons, List.length_append, List.length_cons, hw a List.mem_cons_self,
      ih fun b hb => hw b (List.mem_cons_of_mem _ hb), List.length_cons]
    ring

/-- What stands behind a word does not matter if it starts with no glyph, or if
no more cells are read. -/
theorem read_write {letters : List α}
    (hletters : ∀ a ∈ letters, (glyph a).length = w ∧ decode (glyph a) = some a) {rest : List β}
    {n : ℕ} (hrest : letters.length < n → decode (rest.take w) = none) (hn : letters.length ≤ n) :
    read decode w n (write glyph gap letters ++ rest) = letters := by
  induction letters generalizing n with
  | nil =>
    cases n with
    | zero => rfl
    | succ n => rw [write_nil, List.nil_append, read, hrest n.succ_pos]
  | cons a letters ih =>
    obtain ⟨hw, ha⟩ := hletters a List.mem_cons_self
    cases n with
    | zero => cases hn
    | succ n =>
      have htake : (write glyph gap (a :: letters) ++ rest).take w = glyph a := by
        rw [write_cons, List.append_assoc, ← hw, List.take_left]
      have hdrop : (write glyph gap (a :: letters) ++ rest).drop (w + 1) =
          write glyph gap letters ++ rest := by
        rw [write_cons, List.append_assoc, List.cons_append, ← hw, ← List.drop_drop,
          List.drop_left, List.drop_one, List.tail_cons]
      rw [read, htake, ha, hdrop]
      exact congrArg (a :: ·) (ih (fun b hb => hletters b (List.mem_cons_of_mem _ hb))
        (fun hlt => hrest (Nat.succ_lt_succ hlt)) (Nat.le_of_succ_le_succ hn))

end GlyphRow
