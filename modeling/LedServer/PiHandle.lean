import LedServer.PiContent

set_option autoImplicit false

/-!
# `handle.cpp`

The functions of `handle_t` on its queues, and `start` as one step for each
queue it pops.
-/
namespace LedServer.Pi
open Mcu

def queueSizeLimit : ℕ := 3

/-- `handle_t`, the queue it pushes to, the static `serial_id` of `mcu_id::get`,
which no other thread uses, and `m_first_byte` of its font. -/
structure Handle where
  fromMcuQueue : List (List Byte)
  toMcuQueue : List (List Byte)
  commandQueue : List Command
  statusQueue : List Status
  content : Content
  suspend : Bool
  firstByte : Byte
  playlistId : Byte
  serialId : Byte

def handleInit (trackRegexList : List (Text → Option Text)) (firstByte : Byte) : Handle where
  fromMcuQueue := []
  toMcuQueue := []
  commandQueue := []
  statusQueue := []
  content := contentInit trackRegexList
  suspend := false
  firstByte := firstByte
  playlistId := 0
  serialId := 0

/-! ### Texts -/

def toUint8 (src : Text) : Option Byte :=
  let (tmp, failed) := readUnsigned src
  if failed ∨ tmp > 0xFF then none else some (BitVec.ofNat 8 tmp)

def fromUint8 (src : Byte) : Text := text (toString src.toNat)

/-- `split_to_uint8` on the text from `pos` on: the number, and the text from
the new `pos` on, if that is not `npos`. -/
def splitToUint8 (src : Text) : Option Byte × Option Text :=
  let field := src.takeWhile (· ≠ 0x2D)
  match src.dropWhile (· ≠ 0x2D) with
  | [] => (toUint8 field, none)
  | _ :: rest => (toUint8 field, some rest)

/-- What becomes of a call that may throw. -/
inductive Outcome (α : Type) where
  | ok (a : α)
  | failed
  | thrown

/-- `split_info`; `substr` throws when `pos` is `npos`. -/
def splitInfo (src : Text) : Outcome (Byte × Byte × Byte) :=
  match splitToUint8 src with
  | (none, _) => .failed
  | (some _, none) => .thrown
  | (some value, some src) =>
    match splitToUint8 src with
    | (none, _) => .failed
    | (some _, none) => .thrown
    | (some min, some src) =>
      match splitToUint8 src with
      | (none, _) => .failed
      | (some max, _) => .ok (value, min, max)

def decodeSplit1 : List Byte → Option Byte
  | _ :: _ :: load1 :: _ => some load1
  | _ => none

def decodeSplit2 : List Byte → Option (Byte × Byte)
  | _ :: _ :: load1 :: load2 :: _ => some (load1, load2)
  | _ => none

def decodeSplit3 : List Byte → Option (Byte × Byte × Byte)
  | _ :: _ :: load1 :: load2 :: load3 :: _ => some (load1, load2, load3)
  | _ => none

/-! ### What goes out -/

namespace Handle

/-- `m_to_mcu_queue->push (mcu::encode::join (serial, ...))`. -/
def push (h : Handle) (serial msgId : Byte) (payload : List Byte) : Handle :=
  { h with toMcuQueue := h.toMcuQueue ++ [encodeJoin serial msgId payload] }

/-- The same with the serial that `mcu_id::get` gives. -/
def pushNext (h : Handle) (msgId : Byte) (payload : List Byte) : Handle :=
  { h with serialId := mcuIdGet h.serialId }.push (mcuIdGet h.serialId) msgId payload

def issue (h : Handle) (id : CommandId) (body : Text) (timeout : ℕ) : Handle :=
  { h with commandQueue := h.commandQueue ++ [⟨id, body, timeout⟩] }

end Handle

/-- The payloads `info_push` cuts a matrix into. -/
def ledArrays (matrix : Matrix) : List Matrix :=
  ((List.range (matrix.length / ledArraySize)).map fun i =>
    (matrix.drop (ledArraySize * i)).take ledArraySize) ++
    if matrix.length % ledArraySize > 0 then
      [matrix.drop (ledArraySize * (matrix.length / ledArraySize))]
    else []

def infoPush (h : Handle) : Handle :=
  if h.suspend = true ∨ h.toMcuQueue.length ≥ queueSizeLimit then h
  else
    let (content, info) := h.content.out
    let (firstByte, matrix) := pixelize h.firstByte (info ++ [blank])
    (ledArrays matrix).foldl (fun h payload => h.pushNext msgIdLedArray payload)
      { h with content := content, firstByte := firstByte }

/-! ### Messages from the AVR -/

def mcuQueryName (h : Handle) (msg : List Byte) : Handle :=
  match decodeSplit2 msg with
  | none => h
  | some (param, id) =>
    if param ≠ parameterPlaylist ∧ param ≠ parameterTrack then h
    else if param = parameterPlaylist then
      h.issue .mpcPlaylistName (text "led-mpc.sh playlist-name " ++ fromUint8 id) threeSeconds
    else h.issue .mpcTrackName (text "led-mpc.sh track-name " ++ fromUint8 id) threeSeconds

def mcuQueryNumber (h : Handle) (msg : List Byte) : Handle :=
  match decodeSplit1 msg with
  | none => h
  | some param =>
    if param ≠ parameterPlaylist ∧ param ≠ parameterTrack ∧ param ≠ parameterVolume then h
    else if param = parameterPlaylist then
      h.issue .mpcPlaylistGet (text "led-mpc.sh playlist-get") threeSeconds
    else if param = parameterTrack then
      h.issue .mpcTrackGet (text "led-mpc.sh track-get") threeSeconds
    else h.issue .mpcVolumeGet (text "led-mpc.sh volume-get") threeSeconds

/-- `new_id` of `mcu_param_set`. -/
def newPlaylistId (playlistId positive delta : Byte) : Byte :=
  if positive = parameterPositive then playlistId + delta
  else if playlistId > delta then playlistId - delta
  else 0

def mcuParamSet (h : Handle) (msg : List Byte) : Handle :=
  match decodeSplit3 msg with
  | none => h
  | some (param, positive, delta) =>
    if (param ≠ parameterVolume ∧ param ≠ parameterTrack ∧ param ≠ parameterPlaylist ∧
          param ≠ parameterGoAhead) ∨
        (positive ≠ parameterPositive ∧ positive ≠ parameterNegative) then h
    else
      let sign := if positive = parameterPositive then text "+ " else text "- "
      if param = parameterVolume then
        h.issue .mpcVolumeSet (text "led-mpc.sh volume-set " ++ sign ++ fromUint8 delta)
          threeSeconds
      else if param = parameterTrack then
        h.issue .mpcTrackSet (text "led-mpc.sh track-set " ++ sign ++ fromUint8 delta) threeSeconds
      else if param = parameterPlaylist then
        let newId := newPlaylistId h.playlistId positive delta
        { h with playlistId := if newId > 0 then newId else h.playlistId }.issue .mpcPlaylistSet
          (text "led-mpc.sh playlist-set " ++ fromUint8 newId) threeSeconds
      else if positive = parameterPositive then
        h.issue .mpcPlay (text "led-mpc.sh play") threeSeconds
      else h.issue .mpcStop (text "led-mpc.sh stop") threeSeconds

def mcuPoweroff (h : Handle) (msg : List Byte) : Handle :=
  match decodeSplit1 msg with
  | none => h
  | some delay =>
    if delay = 0 then h.issue .poweroff (text "sudo poweroff") tenSeconds
    else h.issue .shutdown (text "sudo /sbin/shutdown " ++ fromUint8 delay) tenSeconds

def mcuReboot (h : Handle) : Handle := h.issue .reboot (text "sudo reboot") tenSeconds

def mcuStatus (h : Handle) (msg : List Byte) : Handle :=
  match decodeSplit2 msg with
  | none => h
  | some (_, srcMsgId) => if srcMsgId = msgIdLedArray then infoPush h else h

def mcuSuspend (h : Handle) : Handle := { h with suspend := true, content := h.content.clearTop }

def mcuResume (h : Handle) : Handle := infoPush { h with suspend := false }

/-- Nothing when the version makes it throw. -/
def mcuVersion (h : Handle) (msg : List Byte) : Option Handle :=
  match decodeSplit1 msg with
  | none => some h
  | some version =>
    if version ≠ protocolVersion then none
    else some (infoPush (h.push serialIdToIgnore msgIdHandshake []))

/-- `handle_mcu`; nothing when an exception leaves it. -/
def handleMcu (h : Handle) (msg : List Byte) : Option Handle :=
  match decodeGetMsgId msg with
  | none => some h
  | some msgId =>
    if msgId = msgIdParamSet then some (mcuParamSet h msg)
    else if msgId = msgIdPoweroff then some (mcuPoweroff h msg)
    else if msgId = msgIdQueryName then some (mcuQueryName h msg)
    else if msgId = msgIdQueryNumber then some (mcuQueryNumber h msg)
    else if msgId = msgIdReboot then some (mcuReboot h)
    else if msgId = msgIdResume then some (mcuResume h)
    else if msgId = msgIdStatus then some (mcuStatus h msg)
    else if msgId = msgIdSuspend then some (mcuSuspend h)
    else if msgId = msgIdVersion then mcuVersion h msg
    else some h

/-! ### Command statuses -/

def filterSystem (h : Handle) (info : Text) : Handle × Bool :=
  match matchSystem info with
  | none => (h, false)
  | some (front, _) =>
    if front = text "mpc play" then
      (h.issue .mpcPlay (text "led-mpc.sh play") threeSeconds, true)
    else (h, false)

def contentIn (h : Handle) (status : Status) : Handle :=
  let (content, clock) := h.content.input status
  let h := { h with content := content }
  match clock with
  | none => h
  | some (hour, minute) => h.pushNext msgIdSyncClock [hour, minute]

/-- The answer to QUERY_NUMBER. -/
def handleNumber (h : Handle) (status : Status) : Option Handle :=
  match splitInfo status.out with
  | .thrown => none
  | .failed => some h
  | .ok (value, min, max) =>
    let param := if status.id = .mpcVolumeGet then parameterVolume
      else if status.id = .mpcTrackGet then parameterTrack else parameterPlaylist
    let value := if param = parameterPlaylist then h.playlistId else value
    some (h.pushNext msgIdQueryNumber [param, value, min, max])

/-- The answer to QUERY_NAME. -/
def handleName (h : Handle) (status : Status) : Handle :=
  let parameter := if status.id = .mpcPlaylistName then parameterPlaylist else parameterTrack
  match (splitToUint8 status.out).1 with
  | none => h
  | some id => (contentIn h status).pushNext msgIdQueryName [parameter, id]

/-- `handle_status`; nothing when an exception leaves it. -/
def handleStatus (h : Handle) (status : Status) : Option Handle :=
  if status.value ≠ Status.good then some h
  else if status.id = .streamSystem ∧ (filterSystem h status.out).2 = true then
    some (filterSystem h status.out).1
  else
    match status.id with
    | .mpcPlaylistGet | .mpcTrackGet | .mpcVolumeGet => handleNumber h status
    | .mpcPlaylistName | .mpcTrackName => some (handleName h status)
    | .mpcPlay | .mpcPlaylistSet | .mpcStop | .mpcTrackSet | .mpcVolumeSet => some h
    | _ => some (contentIn h status)

end LedServer.Pi
