import LedServer.PiContent

set_option autoImplicit false

/-!
# `popen.cpp` and `bash.cpp`

The child process is known by what comes through its pipe. An asynchronous
operation of `asio` is a handler that waits, is queued, or has run.
-/
namespace LedServer.Pi

/-! ### `popen_t` -/

def intMax : ℤ := 2 ^ 31 - 1

/-- `istringstream >> int`, on digits. -/
def readInt (src : Text) : ℤ := min (digits src : ℤ) intMax

/-- `m_pid`, `m_status` and `m_buf`. -/
structure Popen where
  pid : ℤ
  status : Option ℤ
  buf : Text

def popenInit : Popen := ⟨0, none, []⟩

/-- `regex_match` with `\s*([^: ]+)\s*:\s*(\d+)\s*`, as far as `filter` looks at
it: a first group of nothing but white space is no match. -/
def matchStatus (src : Text) : Option (Text × Text) :=
  let front := (src.takeWhile (· ≠ 0x3A)).dropWhile isSpace
  let word := front.takeWhile (· ≠ 0x20)
  match src.dropWhile (· ≠ 0x3A) with
  | [] => none
  | _ :: back =>
    let back := back.dropWhile isSpace
    let number := back.takeWhile isDigit
    if word = [] ∨ (front.drop word.length).all isSpace = false ∨ number = [] ∨
        (back.drop number.length).all isSpace = false then none
    else some (word, number)

/-- `popen_t::filter`: the process and what is left of the line. -/
def popenFilter (p : Popen) (info : Text) : Popen × Text :=
  match matchStatus info with
  | none => (p, info)
  | some (front, back) =>
    if front = text "pid" then ({ p with pid := readInt back }, [])
    else if front = text "status" then ({ p with status := some (readInt back) }, [])
    else (p, info)

/-- The lines that are complete, and the rest. -/
def splitLines : Text → List Text × Text
  | [] => ([], [])
  | c :: src =>
    let (lines, rest) := splitLines src
    if c = 0x0A then ([] :: lines, rest)
    else
      match lines with
      | [] => ([], c :: rest)
      | line :: lines => ((c :: line) :: lines, rest)

/-- The loop body of `handle_read`: the process and the lines passed on so far. -/
def readLine (p : Popen × List Text) (info : Text) : Popen × List Text :=
  let (popen, info) := popenFilter p.1 info
  (popen, if info = [] then p.2 else p.2 ++ [info])

/-- `popen_t::handle_read` without an error. -/
def handleRead (p : Popen) (chunk : Text) : Popen × List Text :=
  let (lines, rest) := splitLines (p.buf ++ chunk)
  lines.foldl readLine ({ p with buf := rest }, [])

/-! ### `bash_t` -/

/-- The wait of a command's timer. `expired` and `aborted` stand for a queued
handler, without and with an error; `timedOut` and `cancelled` for one that has
run. -/
inductive TimerWait where
  | waiting | expired | aborted | timedOut | cancelled
deriving DecidableEq, Repr

/-- A command that `execute_command` has started: its list of results, its
timer, its process and whether the process is known to the command yet.
`reading` says that the read of the pipe is pending. -/
structure Task where
  command : Command
  resultList : List Text
  timer : TimerWait
  popen : Popen
  attached : Bool
  reading : Bool

/-- Commands are numbered in the order they are started in. The first field of a
status says whose it is, and `erased` keeps the calls of `erase` with the number
of entries each has taken out. -/
structure Bash where
  tasks : ℕ → Option Task
  next : ℕ
  commandMap : List ℕ
  statusQueue : List (ℕ × Status)
  erased : List (ℕ × ℕ)

def bashInit : Bash := ⟨fun _ => none, 0, [], [], []⟩

namespace Bash

def set (s : Bash) (i : ℕ) (task : Task) : Bash :=
  { s with tasks := Function.update s.tasks i (some task) }

def push (s : Bash) (i : ℕ) (status : Status) : Bash :=
  { s with statusQueue := s.statusQueue ++ [(i, status)] }

def erase (s : Bash) (i : ℕ) : Bash :=
  { s with
    commandMap := s.commandMap.filter (· ≠ i)
    erased := s.erased ++ [(i, s.commandMap.count i)] }

end Bash

/-- `command_t::result`. -/
def commandResult (resultList : List Text) : Text :=
  resultList.foldl (fun res info => if res = [] then info else res ++ [0x0A] ++ info) []

/-- `cancel` on the timer: a wait is aborted, what is queued stays. -/
def cancelTimeout (timer : TimerWait) : TimerWait :=
  if timer = .waiting then .aborted else timer

/-- `execute_command` up to the construction of the process. -/
def executeCommand (s : Bash) (command : Command) : Bash :=
  { (s.set s.next ⟨command, [], .waiting, popenInit, false, true⟩) with
    next := s.next + 1
    commandMap := s.next :: s.commandMap }

def clotError (s : Bash) (i : ℕ) (task : Task) : Bash :=
  let value := if task.attached then task.popen.status.getD Status.bad else Status.bad
  ((s.set i { task with timer := cancelTimeout task.timer }).push i
    ⟨task.command.id, value, commandResult task.resultList⟩).erase i

def streamError (s : Bash) (i : ℕ) (task : Task) : Bash :=
  (s.set i { task with timer := cancelTimeout task.timer }).erase i

/-- `bash_t::timeout`, as the handler that is queued. -/
def bashTimeout (s : Bash) (i : ℕ) (task : Task) : Bash :=
  if task.timer = .aborted then s.set i { task with timer := .cancelled }
  else
    ((s.set i { task with timer := .timedOut }).push i
      ⟨task.command.id, Status.timeout, commandResult task.resultList⟩).erase i

/-- What `handle_read` passes on, to `stream_info` or to `clot_info`. -/
def passInfo (s : Bash) (i : ℕ) (task : Task) (infos : List Text) : Bash :=
  if task.command.id.stream then
    { s.set i task with
      statusQueue := s.statusQueue ++
        infos.map fun info => (i, ⟨task.command.id, Status.good, info⟩) }
  else s.set i { task with resultList := task.resultList ++ infos }

inductive BashEvent where
  | execute (command : Command)
  | attach (i : ℕ)
  | expire (i : ℕ)
  | runTimer (i : ℕ)
  | read (i : ℕ) (chunk : Text)
  | endOfFile (i : ℕ)

/-- A step on the task it is about, if there is one. -/
def Bash.on (s : Bash) (i : ℕ) (f : Task → Bash) : Bash :=
  match s.tasks i with
  | none => s
  | some task => f task

/-- `attach` is the last statement of `execute_command`; `expire` queues the
handler of a timer, `runTimer` runs it. -/
def bashStep (s : Bash) : BashEvent → Bash
  | .execute command => executeCommand s command
  | .attach i => s.on i fun task => s.set i { task with attached := true }
  | .expire i => s.on i fun task =>
      if task.timer = .waiting then s.set i { task with timer := .expired } else s
  | .runTimer i => s.on i fun task =>
      if task.timer = .expired ∨ task.timer = .aborted then bashTimeout s i task else s
  | .read i chunk => s.on i fun task =>
      if task.reading then
        passInfo s i { task with popen := (handleRead task.popen chunk).1 }
          (handleRead task.popen chunk).2
      else s
  | .endOfFile i => s.on i fun task =>
      if task.reading then
        let task := { task with reading := false, popen := { task.popen with pid := 0 } }
        if task.command.id.stream then streamError s i task else clotError s i task
      else s

end LedServer.Pi
