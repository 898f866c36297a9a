import LedServer.Separated
import LedServer.StreamMachine
import LedServer.PiPopen

set_option autoImplicit false

/-!
# The lines of a command

What `popen_t` passes on depends on the bytes the command has written and not on
the reads they have arrived in.
-/
namespace LedServer.Pi
open StreamMachine

def newline : Byte := 0x0A

/-- The number of a pid line. -/
def linePid (info : Text) : Option ℤ :=
  match matchStatus info with
  | some (front, back) => if front = text "pid" then some (readInt back) else none
  | none => none

def lineStatus (info : Text) : Option ℤ :=
  match matchStatus info with
  | some (front, back) => if front = text "status" then some (readInt back) else none
  | none => none

/-- A line that goes to `m_info_arrived`. -/
def Passed (info : Text) : Prop := info ≠ [] ∧ linePid info = none ∧ lineStatus info = none

instance (info : Text) : Decidable (Passed info) := inferInstanceAs (Decidable (_ ∧ _ ∧ _))

/-- The lines that end with a newline. -/
def endedLines (src : Text) : List Text := (src.splitOn newline).dropLast

def lastLine (src : Text) : Text := (src.splitOn newline).getLastD []

theorem splitLines_eq (src : Text) : splitLines src = (endedLines src, lastLine src) := by
  unfold endedLines lastLine
  induction src with
  | nil => rfl
  | cons c src ih =>
    have hne := List.splitOn_ne_nil newline src
    rw [splitLines, ih, List.splitOn_cons_eq_if_modifyHead]
    by_cases hc : c = newline
    · have hbeq : (c == newline) = true := by simpa using hc
      have hc' : c = 0x0A := hc
      rw [hbeq]
      simp only [hc', ↓reduceIte]
      match src.splitOn newline, hne with
      | line :: lines, _ => rfl
    · have hbeq : (c == newline) = false := by simpa using hc
      have hc' : ¬ c = 0x0A := hc
      rw [hbeq]
      simp only [hc', ↓reduceIte, Bool.false_eq_true]
      match src.splitOn newline, hne with
      | [line], _ => rfl
      | line :: next :: lines, _ => rfl

/-- The rest of one piece is the beginning of the next. -/
theorem splitLines_append (src more : Text) :
    splitLines (src ++ more) =
      ((splitLines src).1 ++ (splitLines ((splitLines src).2 ++ more)).1,
        (splitLines ((splitLines src).2 ++ more)).2) := by
  induction src with
  | nil => rfl
  | cons c src ih =>
    rw [List.cons_append, splitLines, splitLines, ih]
    by_cases hc : c = 0x0A
    · simp only [hc, ↓reduceIte, List.cons_append]
    · simp only [hc, ↓reduceIte]
      cases hs : (splitLines src).1 with
      | nil =>
        simp only [List.nil_append]
        rw [List.cons_append, splitLines]
        simp only [hc, ↓reduceIte]
      | cons line lines => rfl

theorem lines_append (src more : Text) :
    endedLines (src ++ more) = endedLines src ++ endedLines (lastLine src ++ more) ∧
      lastLine (src ++ more) = lastLine (lastLine src ++ more) := by
  have h := splitLines_append src more
  simp only [splitLines_eq, Prod.mk.injEq] at h
  exact h

/-! ### One line -/

theorem popenFilter_eq (p : Popen) (info : Text) :
    popenFilter p info =
      ({ p with pid := (linePid info).getD p.pid, status := (lineStatus info).or p.status },
        if linePid info = none ∧ lineStatus info = none then info else []) := by
  unfold popenFilter linePid lineStatus
  cases matchStatus info with
  | none => rfl
  | some found =>
    obtain ⟨front, back⟩ := found
    have hother : ¬ text "status" = text "pid" := by decide
    by_cases hpid : front = text "pid"
    · subst hpid
      simp [Ne.symm hother]
    · by_cases hstatus : front = text "status"
      · subst hstatus
        simp [hother]
      · simp [hpid, hstatus]

/-- What is left of a line is the line, or nothing. -/
theorem popenFilter_passed (p : Popen) (info : Text) :
    (if (popenFilter p info).2 = [] then [] else [(popenFilter p info).2]) =
      if Passed info then [info] else [] := by
  rw [popenFilter_eq]
  by_cases hkept : linePid info = none ∧ lineStatus info = none
  · by_cases hnil : info = []
    · simp [hnil, Passed]
    · simp [hkept, hnil, Passed]
  · have hno : ¬ Passed info := fun h => hkept h.2
    simp [hkept, hno]

theorem readLine_eq (p : Popen) (out : List Text) (info : Text) :
    readLine (p, out) info =
      ({ p with pid := (linePid info).getD p.pid, status := (lineStatus info).or p.status },
        out ++ if Passed info then [info] else []) := by
  rw [← popenFilter_passed p info]
  unfold readLine
  refine Prod.ext ?_ ?_
  · simp only [popenFilter_eq]
  · by_cases hnil : (popenFilter p info).2 = []
    · simp [hnil]
    · simp [hnil]

/-- The last number of a kind stays, and the lines of neither kind are passed on. -/
theorem foldl_readLine (lines : List Text) (p : Popen) (out : List Text) :
    lines.foldl readLine (p, out) =
      ({ p with
        pid := (lines.filterMap linePid).getLast?.getD p.pid
        status := (lines.filterMap lineStatus).getLast?.or p.status },
        out ++ lines.filter fun info => Passed info) := by
  induction lines generalizing p out with
  | nil => simp
  | cons info lines ih =>
    rw [List.foldl_cons, readLine_eq, ih]
    refine Prod.ext ?_ ?_
    · cases hpid : linePid info <;> cases hstatus : lineStatus info <;>
        simp [hpid, hstatus, List.getLast?_cons]
    · by_cases hpassed : Passed info <;> simp [hpassed]

/-! ### Every read -/

theorem cut_lines {src : Text} (h : newline ∈ src) :
    endedLines src = src.takeWhile (· ≠ newline) ::
        endedLines (src.dropWhile (· ≠ newline)).tail ∧
      lastLine src = lastLine (src.dropWhile (· ≠ newline)).tail := by
  obtain ⟨line, lines, hs⟩ := List.exists_cons_of_ne_nil
    (List.splitOn_ne_nil newline (src.dropWhile (· ≠ newline)).tail)
  unfold endedLines lastLine
  rw [Separated.splitOn_cut h, hs]
  exact ⟨rfl, rfl⟩

theorem uncut_lines {src : Text} (h : newline ∉ src) :
    endedLines src = [] ∧ lastLine src = src := by
  unfold endedLines lastLine
  rw [List.splitOn_eq_singleton h]
  exact ⟨rfl, rfl⟩

/-- The loop of `handle_read` as it stands, which cuts `m_buf` at its first
newline as long as it has one. -/
def readLoop (p : Popen) : Popen × List Text :=
  if _h : newline ∈ p.buf then
    let info := p.buf.takeWhile (· ≠ newline)
    let filtered := popenFilter { p with buf := (p.buf.dropWhile (· ≠ newline)).tail } info
    let read := readLoop filtered.1
    (read.1, (if filtered.2 = [] then [] else [filtered.2]) ++ read.2)
  else (p, [])
termination_by p.buf.length
decreasing_by
  rw [popenFilter_eq]
  exact Separated.behind_length _h

theorem readLoop_eq (p : Popen) :
    readLoop p =
      (endedLines p.buf).foldl readLine ({ p with buf := lastLine p.buf }, []) := by
  induction p using readLoop.induct with
  | case1 p h info filtered ih =>
    obtain ⟨hended, hlast⟩ := cut_lines h
    have hfiltered : filtered.1 =
        { p with
          pid := (linePid info).getD p.pid
          status := (lineStatus info).or p.status
          buf := (p.buf.dropWhile (· ≠ newline)).tail } := by
      simp only [filtered, popenFilter_eq]
    have hpassed : (if filtered.2 = [] then [] else [filtered.2]) =
        if Passed info then [info] else [] := popenFilter_passed _ info
    rw [readLoop, dif_pos h, hended, hlast, List.foldl_cons, readLine_eq]
    dsimp only
    rw [ih, hpassed, hfiltered, foldl_readLine, foldl_readLine]
    rfl
  | case2 p h =>
    obtain ⟨hended, hlast⟩ := uncut_lines h
    rw [readLoop, dif_neg h, hended, hlast]
    rfl

/-- The model's `handle_read` runs that loop. -/
theorem handleRead_loop (p : Popen) (chunk : Text) :
    handleRead p chunk = readLoop { p with buf := p.buf ++ chunk } := by
  rw [readLoop_eq, handleRead, splitLines_eq]

theorem handleRead_eq (p : Popen) (chunk : Text) :
    handleRead p chunk =
      (⟨((endedLines (p.buf ++ chunk)).filterMap linePid).getLast?.getD p.pid,
        ((endedLines (p.buf ++ chunk)).filterMap lineStatus).getLast?.or p.status,
        lastLine (p.buf ++ chunk)⟩,
        (endedLines (p.buf ++ chunk)).filter fun info => Passed info) := by
  rw [handleRead, splitLines_eq]
  exact foldl_readLine _ _ _

/-- However the bytes a command writes are split into reads, the lines that are
passed on are the ended lines of the whole that are not empty, without those of
the pid and the status; the last of these give the pid and the status. -/
theorem reads_irrelevant (chunks : List Text) :
    feed handleRead popenInit chunks =
      (⟨((endedLines chunks.flatten).filterMap linePid).getLast?.getD 0,
        ((endedLines chunks.flatten).filterMap lineStatus).getLast?,
        lastLine chunks.flatten⟩,
        (endedLines chunks.flatten).filter fun info => Passed info) := by
  induction chunks using List.reverseRecOn with
  | nil => rfl
  | append_singleton chunks chunk ih =>
    obtain ⟨hended, hlast⟩ := lines_append chunks.flatten chunk
    rw [feed_append, ih, feed_single, List.flatten_append, List.flatten_singleton, hended, hlast,
      handleRead_eq]
    simp only [List.filterMap_append, List.filter_append, List.getLast?_append, Option.getD_or]

end LedServer.Pi
