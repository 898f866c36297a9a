import LedServer.McuMessage
import LedServer.PiFont

set_option autoImplicit false

/-!
# `command-id.hpp`, `command.hpp`, `status.hpp` and `content.cpp`
-/
namespace LedServer.Pi

inductive CommandId where
  | mpcPlay | mpcPlaylistGet | mpcPlaylistName | mpcPlaylistSet | mpcStop | mpcTrackGet
  | mpcTrackName | mpcTrackSet | mpcVolumeGet | mpcVolumeSet | poweroff | shutdown | reboot
  | streamClock | streamSystem | streamTrackName
deriving DecidableEq, Repr

namespace CommandId

/-- In the order of the enumeration, which is that of `info_map_t`. -/
def all : List CommandId :=
  [mpcPlay, mpcPlaylistGet, mpcPlaylistName, mpcPlaylistSet, mpcStop, mpcTrackGet, mpcTrackName,
    mpcTrackSet, mpcVolumeGet, mpcVolumeSet, poweroff, shutdown, reboot, streamClock, streamSystem,
    streamTrackName]

def stream (id : CommandId) : Bool := id = streamClock || id = streamSystem || id = streamTrackName

end CommandId

structure Command where
  id : CommandId
  body : Text
  timeout : ℕ
deriving DecidableEq, Repr

def threeSeconds : ℕ := 3

def tenSeconds : ℕ := 10

structure Status where
  id : CommandId
  value : ℤ
  out : Text
deriving DecidableEq, Repr

def Status.good : ℤ := 0
def Status.bad : ℤ := 2 ^ 31 - 1
def Status.timeout : ℤ := -2 ^ 31

/-! ### The library functions the texts go through -/

def isSpace (s : Byte) : Bool := s = 0x20 || (0x09 ≤ s && s ≤ 0x0D)

def isDigit (s : Byte) : Bool := 0x30 ≤ s && s ≤ 0x39

def digits (src : Text) : ℕ := src.foldl (fun n s => 10 * n + (s - 0x30).toNat) 0

def unsignedMax : ℕ := 2 ^ 32 - 1

/-- `istringstream >> unsigned`: what is stored, and whether the stream fails. -/
def readUnsigned (src : Text) : ℕ × Bool :=
  let src := src.dropWhile isSpace
  let minus := src.head? = some 0x2D
  let src := if minus ∨ src.head? = some 0x2B then src.tail else src
  let number := src.takeWhile isDigit
  if number = [] then (0, true)
  else if digits number > unsignedMax then (unsignedMax, true)
  else if minus then ((unsignedMax + 1 - digits number) % (unsignedMax + 1), false)
  else (digits number, false)

/-- What `.` matches. -/
def isAny (s : Byte) : Bool := s ≠ 0x0A && s ≠ 0x0D

/-- `regex_match` with `\s*(\d+)\s*:\s*(\d+).*`. -/
def matchClock (src : Text) : Option (Text × Text) :=
  let src := src.dropWhile isSpace
  let hour := src.takeWhile isDigit
  let src := (src.dropWhile isDigit).dropWhile isSpace
  match src with
  | [] => none
  | colon :: src =>
    let src := src.dropWhile isSpace
    let minute := src.takeWhile isDigit
    if hour = [] ∨ colon ≠ 0x3A ∨ minute = [] ∨ (src.dropWhile isDigit).all isAny = false then none
    else some (hour, minute)

/-- `regex_match` with `\s*([^:]+):(.*)`. -/
def matchSystem (src : Text) : Option (Text × Text) :=
  let front := src.takeWhile (· ≠ 0x3A)
  let info := front.dropWhile isSpace
  match src.dropWhile (· ≠ 0x3A) with
  | [] => none
  | _ :: suffix =>
    if front = [] ∨ suffix.all isAny = false then none
    else some (if info = [] then front.drop (front.length - 1) else info, suffix)

/-! ### `content_t` -/

/-- `trackRegexList` holds, for each pattern of the configuration, what
`std::regex_replace` makes of a text, or nothing when it throws. `iterator` is
the key `m_iterator` stands at, or nothing for `end ()`. -/
structure Content where
  topInfo : Text
  middleInfo : List Text
  bottomInfo : CommandId → Option Text
  iterator : Option CommandId
  trackRegexList : List (Text → Option Text)

def contentInit (trackRegexList : List (Text → Option Text)) : Content where
  topInfo := []
  middleInfo := []
  bottomInfo _ := none
  iterator := none
  trackRegexList := trackRegexList

namespace Content

/-- The keys that have an entry. -/
def keys (c : Content) : List CommandId := CommandId.all.filter fun id => (c.bottomInfo id).isSome

def begin (c : Content) : Option CommandId := c.keys.head?

def find (c : Content) (id : CommandId) : Option CommandId :=
  if (c.bottomInfo id).isSome then some id else none

/-- `++m_iterator`. -/
def next (c : Content) (id : CommandId) : Option CommandId :=
  ((c.keys.dropWhile (· ≠ id)).drop 1).head?

def insert (c : Content) (id : CommandId) (info : Text) : Content :=
  { c with bottomInfo := Function.update c.bottomInfo id (some info) }

def replace (c : Content) (src : Text) : Text :=
  (c.trackRegexList.findSome? fun regexReplace =>
    match regexReplace src with
    | some dst => if dst ≠ [] ∧ dst ≠ src then some dst else none
    | none => none).getD src

/-- The hour and the minute `sync_clock` sends on. -/
def syncClock (timeSrc : Text) : Option (Byte × Byte) :=
  (matchClock timeSrc).map fun (hour, minute) =>
    (BitVec.ofNat 8 (readUnsigned hour).1, BitVec.ofNat 8 (readUnsigned minute).1)

/-- The switch of `content_t::in`. -/
def store (c : Content) (status : Status) : Content :=
  match status.id with
  | .mpcPlaylistName | .mpcTrackName => { c with topInfo := status.out }
  | .poweroff => { c with topInfo := text "Goodbye" }
  | .streamSystem => { c with middleInfo := c.middleInfo ++ [status.out] }
  | .streamTrackName =>
    if status.out = [] then c else c.insert .streamTrackName (c.replace status.out)
  | .streamClock => c.insert .streamClock status.out
  | _ => c

/-- `content_t::in`, with what `sync_clock` sends. -/
def input (c : Content) (status : Status) : Content × Option (Byte × Byte) :=
  let stored := c.store status
  (if status.id = .streamSystem then stored else { stored with iterator := stored.find status.id },
    if status.id = .streamClock then syncClock status.out else none)

def out (c : Content) : Content × Text :=
  if c.topInfo ≠ [] then (c, c.topInfo)
  else
    match c.middleInfo with
    | info :: rest => ({ c with middleInfo := rest }, info)
    | [] =>
      match (if c.iterator = none then c.begin else c.iterator) with
      | some id => ({ c with iterator := c.next id }, (c.bottomInfo id).getD [])
      | none => (c, text "Content is empty, nothing to display ")

def clearTop (c : Content) : Content := { c with topInfo := [] }

end Content

end LedServer.Pi
