import Mathlib

set_option autoImplicit false

/-!
# A window of three over a stream

A recogniser `f` looks at three symbols in a row. A window in which it finds
something is discarded as a whole, any other loses its oldest symbol. A part of
the recogniser that finds at most one thing a window finds it in every window
that is not discarded with another.
-/
namespace WindowScan

variable {α β γ : Type*}

section Scan

variable (f : α → α → α → List β)

/-- What is found in a stream. -/
def scan : List α → List β
  | a :: b :: c :: rest =>
    if (f a b c).isEmpty then scan (b :: c :: rest) else f a b c ++ scan rest
  | _ => []

/-- What is found in the window in front. -/
def front : List α → List β
  | a :: b :: c :: _ => f a b c
  | _ => []

/-- What is left once the window in front has been looked at. -/
def next : List α → List α
  | a :: b :: c :: rest => if (f a b c).isEmpty then b :: c :: rest else rest
  | held => held

/-- Where the windows start in which something is found, counted from `i`. -/
def recognised : ℕ → List α → List ℕ
  | i, a :: b :: c :: rest =>
    if (f a b c).isEmpty then recognised (i + 1) (b :: c :: rest)
    else i :: recognised (i + 3) rest
  | _, _ => []

end Scan

/-- What `g` finds in all the windows of a stream, and where each starts. -/
def turns (g : α → α → α → Option γ) : ℕ → List α → List (ℕ × γ)
  | i, a :: b :: c :: rest =>
    (g a b c).toList.map (fun y => (i, y)) ++ turns g (i + 1) (b :: c :: rest)
  | _, _ => []

/-- The window at `i` is broken up by one of those that start at `starts`. -/
def passedOver (starts : List ℕ) (i : ℕ) : Bool := starts.any fun j => i == j + 1 || i == j + 2

variable {f : α → α → α → List β}

/-! ### Piece by piece -/

theorem exists_window {xs : List α} (h : ¬ xs.length < 3) :
    ∃ a b c rest, xs = a :: b :: c :: rest := by
  rcases xs with _ | ⟨a, _ | ⟨b, _ | ⟨c, rest⟩⟩⟩
  · exact absurd (by simp) h
  · exact absurd (by simp) h
  · exact absurd (by simp) h
  · exact ⟨a, b, c, rest, rfl⟩

theorem length_of_no_window {xs : List α} (h : ∀ a b c rest, xs = a :: b :: c :: rest → False) :
    xs.length < 3 := by
  by_contra hlong
  obtain ⟨a, b, c, rest, rfl⟩ := exists_window hlong
  exact h a b c rest rfl

/-- Less than a window finds nothing and stays. -/
theorem short_eq {xs : List α} (h : xs.length < 3) :
    scan f xs = [] ∧ front f xs = [] ∧ next f xs = xs := by
  rcases xs with _ | ⟨a, _ | ⟨b, _ | ⟨c, rest⟩⟩⟩
  · exact ⟨rfl, rfl, rfl⟩
  · exact ⟨rfl, rfl, rfl⟩
  · exact ⟨rfl, rfl, rfl⟩
  · simp only [List.length_cons] at h
    omega

theorem scan_front (a b c : α) (rest : List α) :
    scan f (a :: b :: c :: rest) = f a b c ++ scan f (next f (a :: b :: c :: rest)) := by
  rw [scan, next]
  split_ifs with hempty
  · rw [List.isEmpty_iff.mp hempty, List.nil_append]
  · rfl

theorem next_suffix (held : List α) : next f held <:+ held := by
  by_cases hshort : held.length < 3
  · rw [(short_eq hshort).2.2]
  · obtain ⟨a, b, c, rest, rfl⟩ := exists_window hshort
    rw [next]
    split_ifs
    · exact List.suffix_cons a _
    · exact ⟨[a, b, c], rfl⟩

/-- `done` has been found already, and `held` is what is left of `all`, whatever
comes behind. -/
def Scans (f : α → α → α → List β) (done : List β) (held all : List α) : Prop :=
  ∀ more, scan f (all ++ more) = done ++ scan f (held ++ more)

theorem scans_nil : Scans f [] [] [] := fun _ => rfl

theorem Scans.push {done : List β} {held all : List α} (h : Scans f done held all) (x : α) :
    Scans f done (held ++ [x]) (all ++ [x]) := by
  intro more
  rw [List.append_assoc, List.append_assoc]
  exact h ([x] ++ more)

theorem Scans.next {done : List β} {held all : List α} (h : Scans f done held all) :
    Scans f (done ++ front f held) (next f held) all := by
  by_cases hshort : held.length < 3
  · obtain ⟨-, hfront, hnext⟩ := short_eq (f := f) hshort
    rwa [hfront, hnext, List.append_nil]
  · obtain ⟨a, b, c, rest, rfl⟩ := exists_window hshort
    intro more
    have hfirst := scan_front (f := f) a b c (rest ++ more)
    have hmore : WindowScan.next f (a :: b :: c :: (rest ++ more)) =
        WindowScan.next f (a :: b :: c :: rest) ++ more := by
      rw [WindowScan.next, WindowScan.next]
      split_ifs <;> rfl
    rw [hmore] at hfirst
    rw [h more, List.append_assoc]
    exact congrArg (done ++ ·) hfirst

theorem Scans.short {done : List β} {held all : List α} (h : Scans f done held all)
    (hshort : held.length < 3) : scan f all = done := by
  have hdone := h []
  rwa [List.append_nil, List.append_nil, (short_eq hshort).1, List.append_nil] at hdone

/-! ### Windows found and windows broken up -/

theorem recognised_ge (i : ℕ) (xs : List α) : ∀ j ∈ recognised f i xs, i ≤ j := by
  induction i, xs using recognised.induct f with
  | case1 i a b c rest hempty ih =>
    intro j hj
    rw [recognised, if_pos hempty] at hj
    have := ih j hj
    omega
  | case2 i a b c rest hempty ih =>
    intro j hj
    rw [recognised, if_neg hempty, List.mem_cons] at hj
    rcases hj with rfl | hj
    · exact le_refl j
    · have := ih j hj
      omega
  | case3 i xs hshort =>
    intro j hj
    simp [recognised] at hj

theorem turns_short (g : α → α → α → Option γ) (i : ℕ) {xs : List α} (h : xs.length < 3) :
    turns g i xs = [] := by
  rcases xs with _ | ⟨a, _ | ⟨b, _ | ⟨c, rest⟩⟩⟩
  · rfl
  · rfl
  · rfl
  · simp only [List.length_cons] at h
    omega

theorem turns_ge (g : α → α → α → Option γ) (i : ℕ) (xs : List α) :
    ∀ t ∈ turns g i xs, i ≤ t.1 := by
  induction i, xs using turns.induct with
  | case1 i a b c rest ih =>
    intro t ht
    rw [turns, List.mem_append] at ht
    rcases ht with ht | ht
    · obtain ⟨y, -, rfl⟩ := List.mem_map.mp ht
      exact le_refl i
    · have := ih t ht
      omega
  | case2 i xs hshort =>
    intro t ht
    simp [turns] at ht

/-- The windows that start one or two symbols on, and those behind them. -/
theorem turns_skip (g : α → α → α → Option γ) (i : ℕ) (b c : α) (rest : List α) :
    ∃ early, turns g (i + 1) (b :: c :: rest) = early ++ turns g (i + 3) rest ∧
      ∀ t ∈ early, t.1 = i + 1 ∨ t.1 = i + 2 := by
  let at' : ℕ → Option γ → List (ℕ × γ) := fun j found => found.toList.map fun y => (j, y)
  have hat : ∀ j found, ∀ t ∈ at' j found, t.1 = j := by
    intro j found t ht
    obtain ⟨y, -, rfl⟩ := List.mem_map.mp ht
    rfl
  rcases rest with _ | ⟨d, _ | ⟨e, rest⟩⟩
  · exact ⟨[], rfl, fun t ht => absurd ht List.not_mem_nil⟩
  · refine ⟨at' (i + 1) (g b c d), rfl, fun t ht => .inl (hat _ _ t ht)⟩
  · refine ⟨at' (i + 1) (g b c d) ++ at' (i + 2) (g c d e), ?_, fun t ht => ?_⟩
    · rw [List.append_assoc]
      rfl
    · rcases List.mem_append.mp ht with ht | ht
      · exact .inl (hat _ _ t ht)
      · exact .inr (hat _ _ t ht)

theorem passedOver_cons (i : ℕ) (starts : List ℕ) (j : ℕ) :
    passedOver (i :: starts) j = (j == i + 1 || j == i + 2 || passedOver starts j) := rfl

theorem passedOver_below {starts : List ℕ} {i : ℕ} (h : ∀ j ∈ starts, i ≤ j) :
    passedOver starts i = false := by
  refine List.any_eq_false.mpr fun j hj => ?_
  have := h j hj
  simp only [Bool.or_eq_true, beq_iff_eq, not_or]
  omega

/-- Seen through `pick` the scan has the windows of `g` but those broken up. -/
theorem scan_filterMap {pick : β → Option γ} {g : α → α → α → Option γ}
    (hg : ∀ a b c, (f a b c).filterMap pick = (g a b c).toList) (i : ℕ) (xs : List α) :
    (scan f xs).filterMap pick =
      ((turns g i xs).filter fun t => !passedOver (recognised f i xs) t.1).map Prod.snd := by
  induction i, xs using recognised.induct f with
  | case1 i a b c rest hempty ih =>
    have hnone : (g a b c).toList = [] := by
      rw [← hg, List.isEmpty_iff.mp hempty, List.filterMap_nil]
    rw [scan, if_pos hempty, turns, hnone, List.map_nil, List.nil_append, recognised,
      if_pos hempty]
    exact ih
  | case2 i a b c rest hempty ih =>
    obtain ⟨early, hsplit, hearly⟩ := turns_skip g i b c rest
    have hlater := recognised_ge (f := f) (i + 3) rest
    have hself : passedOver (i :: recognised f (i + 3) rest) i = false := by
      refine passedOver_below fun j hj => ?_
      rcases List.mem_cons.mp hj with rfl | hj
      · exact le_refl j
      · have := hlater j hj
        omega
    have hhere : ((g a b c).toList.map fun y => (i, y)).filter
        (fun t => !passedOver (i :: recognised f (i + 3) rest) t.1) =
          (g a b c).toList.map fun y => (i, y) := by
      refine List.filter_eq_self.mpr fun t ht => ?_
      obtain ⟨y, -, rfl⟩ := List.mem_map.mp ht
      rw [hself]
      rfl
    have hbroken : early.filter
        (fun t => !passedOver (i :: recognised f (i + 3) rest) t.1) = [] := by
      refine List.filter_eq_nil_iff.mpr fun t ht => ?_
      rcases hearly t ht with h | h <;> simp [passedOver_cons, h]
    have hbehind : (turns g (i + 3) rest).filter
        (fun t => !passedOver (i :: recognised f (i + 3) rest) t.1) =
          (turns g (i + 3) rest).filter
            fun t => !passedOver (recognised f (i + 3) rest) t.1 := by
      refine List.filter_congr fun t ht => ?_
      have := turns_ge g (i + 3) rest t ht
      have h1 : (t.1 == i + 1) = false := beq_eq_false_iff_ne.mpr (by omega)
      have h2 : (t.1 == i + 2) = false := beq_eq_false_iff_ne.mpr (by omega)
      rw [passedOver_cons, h1, h2, Bool.false_or, Bool.false_or]
    rw [scan, if_neg hempty, turns, hsplit, recognised, if_neg hempty, List.filterMap_append, hg,
      List.filter_append, List.filter_append, hhere, hbroken, hbehind, List.nil_append,
      List.map_append, ih, List.map_map]
    congr 1
    exact (List.map_id _).symm
  | case3 xs i hshort =>
    have hlength := length_of_no_window hshort
    rw [(short_eq hlength).1, turns_short g i hlength]
    rfl

/-! ### A part that does not meet itself -/

/-- A window of `g` leaves the two behind it empty. -/
def Isolated (g : α → α → α → Option γ) : Prop :=
  ∀ a b c d e, (g a b c).isSome → g b c d = none ∧ g c d e = none

theorem Isolated.skip {g : α → α → α → Option γ} (hg : Isolated g) {a b c : α}
    (habc : (g a b c).isSome) (i : ℕ) (rest : List α) :
    turns g (i + 1) (b :: c :: rest) = turns g (i + 3) rest := by
  rcases rest with _ | ⟨d, _ | ⟨e, rest⟩⟩
  · rfl
  · obtain ⟨hfirst, -⟩ := hg a b c d d habc
    rw [turns, hfirst]
    rfl
  · obtain ⟨hfirst, hsecond⟩ := hg a b c d e habc
    rw [turns, hfirst, turns, hsecond]
    rfl

/-- So two windows of `g` never share a symbol. -/
theorem turns_apart {g : α → α → α → Option γ} (hg : Isolated g) (i : ℕ) (xs : List α) :
    (turns g i xs).Pairwise fun s t => s.1 + 3 ≤ t.1 := by
  induction i, xs using turns.induct with
  | case1 i a b c rest ih =>
    rw [turns]
    cases habc : g a b c with
    | none => exact ih
    | some y =>
      refine List.pairwise_cons.mpr ⟨fun t ht => ?_, ih⟩
      have hbehind : t ∈ turns g (i + 3) rest := by
        rw [← hg.skip (a := a) (by rw [habc]; rfl)]
        exact ht
      exact turns_ge g (i + 3) rest t hbehind
  | case2 xs i hshort =>
    rw [turns_short g i (length_of_no_window hshort)]
    exact List.Pairwise.nil

/-- What breaks up a window of `g` is not a window of `g`. -/
theorem not_mem_turns {g : α → α → α → Option γ} (hg : Isolated g) {i j : ℕ} {xs : List α}
    {t : ℕ × γ} (ht : t ∈ turns g i xs) (hj : t.1 = j + 1 ∨ t.1 = j + 2) :
    ∀ s ∈ turns g i xs, s.1 ≠ j := by
  intro s hs heq
  have hapart : (turns g i xs).Pairwise fun s t => s.1 = t.1 ∨ s.1 + 3 ≤ t.1 ∨ t.1 + 3 ≤ s.1 :=
    (turns_apart hg i xs).imp fun hst => .inr (.inl hst)
  have hflip := hapart.imp fun hst => hst.imp Eq.symm Or.symm
  have hst := List.Pairwise.forall_of_forall_of_flip (fun _ _ => .inl rfl) hapart hflip hs ht
  omega

theorem recognised_turn {g : α → α → α → Option γ} (i : ℕ) (xs : List α)
    (hg : ∀ a ∈ xs, ∀ b ∈ xs, ∀ c ∈ xs, ¬ (f a b c).isEmpty → (g a b c).isSome) :
    ∀ j ∈ recognised f i xs, ∃ s ∈ turns g i xs, s.1 = j := by
  induction i, xs using recognised.induct f with
  | case1 i a b c rest hempty ih =>
    intro j hj
    rw [recognised, if_pos hempty] at hj
    have htail : ∀ x ∈ b :: c :: rest, x ∈ a :: b :: c :: rest := fun x => List.mem_cons_of_mem a
    obtain ⟨s, hs, hsj⟩ := ih (fun x hx y hy z hz =>
      hg x (htail x hx) y (htail y hy) z (htail z hz)) j hj
    exact ⟨s, List.mem_append_right _ hs, hsj⟩
  | case2 i a b c rest hempty ih =>
    intro j hj
    rw [recognised, if_neg hempty] at hj
    rcases List.mem_cons.mp hj with rfl | hj
    · obtain ⟨y, hy⟩ := Option.isSome_iff_exists.mp
        (hg a (by simp) b (by simp) c (by simp) hempty)
      refine ⟨(j, y), ?_, rfl⟩
      rw [turns, hy]
      exact List.mem_cons_self
    · have htail : ∀ x ∈ rest, x ∈ a :: b :: c :: rest := fun x hx => by simp [hx]
      obtain ⟨s, hs, hsj⟩ := ih (fun x hx y hy z hz =>
        hg x (htail x hx) y (htail y hy) z (htail z hz)) j hj
      obtain ⟨early, hsplit, -⟩ := turns_skip g i b c rest
      refine ⟨s, List.mem_append_right _ ?_, hsj⟩
      rw [hsplit]
      exact List.mem_append_right _ hs
  | case3 xs i hshort =>
    intro j hj
    rw [recognised.eq_2 f i xs hshort] at hj
    exact absurd hj List.not_mem_nil

/-- A scan that finds nothing but windows of `g` finds them all. -/
theorem scan_alone {pick : β → Option γ} {g : α → α → α → Option γ} (isolated : Isolated g)
    (hg : ∀ a b c, (f a b c).filterMap pick = (g a b c).toList) {xs : List α}
    (halone : ∀ a ∈ xs, ∀ b ∈ xs, ∀ c ∈ xs, ¬ (f a b c).isEmpty → (g a b c).isSome) :
    (scan f xs).filterMap pick = (turns g 0 xs).map Prod.snd := by
  rw [scan_filterMap hg 0 xs]
  congr 1
  refine List.filter_eq_self.mpr fun t ht => ?_
  rw [Bool.not_eq_true', passedOver, List.any_eq_false]
  intro j hj hover
  obtain ⟨s, hs, hsj⟩ := recognised_turn 0 xs halone j hj
  have hover' : t.1 = j + 1 ∨ t.1 = j + 2 := by simpa using hover
  exact not_mem_turns isolated ht hover' s hs hsj

/-- Only what `g` looks at matters. -/
theorem turns_map {δ : Type*} (key : α → δ) (g : δ → δ → δ → Option γ) (i : ℕ) (xs : List α) :
    turns (fun a b c => g (key a) (key b) (key c)) i xs = turns g i (xs.map key) := by
  induction i, xs using turns.induct with
  | case1 i a b c rest ih =>
    rw [turns, ih]
    rfl
  | case2 xs i hshort =>
    have hlength := length_of_no_window hshort
    rw [turns_short _ i hlength, turns_short g i (by rwa [List.length_map])]

end WindowScan
