import LedServer.AvrState

set_option autoImplicit false

/-! # `cron.c` and `at.c` -/
namespace LedServer.Avr
open AvrRing

def CronId.toByte : CronId → Byte
  | .idAt => 0
  | .idFan => 1
  | .idFlush => 2
  | .idHeartbeat => 3

def CronId.all : List CronId := [.idAt, .idFan, .idFlush, .idHeartbeat]

/-- The index taken off the queue, `none` from `CRON_ID_MAX` on. -/
def CronId.ofByte (b : Byte) : Option CronId := CronId.all.find? fun id => id.toByte = b

def AtId.all : List AtId := [.boot, .menu, .menuTag, .spi]

def timersInit : Timers where
  callbackArray _ := none
  factorArray _ := 0
  counterArray _ := 0
  queue := bufInit
  engaged := false
  current _ := 0
  max _ := 0
  callback _ := none

def interruptStep (t : Timers) (i : CronId) : Timers :=
  match t.callbackArray i with
  | none => t
  | some _ =>
    let count := t.counterArray i + 1
    if count ≥ t.factorArray i then
      { t with
        counterArray := Function.update t.counterArray i 0
        queue := (bufByteFill t.queue i.toByte).1 }
    else { t with counterArray := Function.update t.counterArray i count }

/-- `interrupt_function`, which `counter_try` calls from the main loop. -/
def interruptFunction (t : Timers) : Timers := CronId.all.foldl interruptStep t

def isRequired (t : Timers) : Bool := CronId.all.any fun i => (t.callbackArray i).isSome

def cronEnable (t : Timers) (id : CronId) (factor : Byte) (callback : CronCallback) : Timers :=
  let t := { t with
    callbackArray := Function.update t.callbackArray id (some callback)
    factorArray := Function.update t.factorArray id factor
    counterArray := Function.update t.counterArray id 0 }
  if isRequired t then { t with engaged := true } else t

def cronDisable (t : Timers) (id : CronId) : Timers :=
  let t := { t with
    callbackArray := Function.update t.callbackArray id none
    factorArray := Function.update t.factorArray id 0
    counterArray := Function.update t.counterArray id 0 }
  if isRequired t then t else { t with engaged := false }

def atDelay : Byte := 200

/-- `empty`: no entry of the table is taken. -/
def atAllEmpty (t : Timers) : Bool := AtId.all.all fun id => (t.callback id).isNone

def atSchedule (t : Timers) (id : AtId) (delay : Byte) (cb : AtCallback) : Timers :=
  cronEnable
    { t with
      current := Function.update t.current id 0
      max := Function.update t.max id delay
      callback := Function.update t.callback id (some cb) }
    .idAt atDelay .atVerify

def atPostpone (t : Timers) (id : AtId) : Timers :=
  { t with current := Function.update t.current id 0 }

def atCancel (t : Timers) (id : AtId) : Timers :=
  let t := { t with callback := Function.update t.callback id none }
  if atAllEmpty t then cronDisable t .idAt else t

def atEmpty (t : Timers) (id : AtId) : Bool := (t.callback id).isNone

/-! ### The table of `at.c` -/

@[simp] theorem cronEnable_callback (t : Timers) (id : CronId) (factor : Byte)
    (callback : CronCallback) : (cronEnable t id factor callback).callback = t.callback := by
  unfold cronEnable
  dsimp only
  split_ifs <;> rfl

@[simp] theorem cronDisable_callback (t : Timers) (id : CronId) :
    (cronDisable t id).callback = t.callback := by
  unfold cronDisable
  dsimp only
  split_ifs <;> rfl

@[simp] theorem atSchedule_callback (t : Timers) (id : AtId) (delay : Byte) (cb : AtCallback) :
    (atSchedule t id delay cb).callback = Function.update t.callback id (some cb) :=
  cronEnable_callback _ _ _ _

@[simp] theorem atCancel_callback (t : Timers) (id : AtId) :
    (atCancel t id).callback = Function.update t.callback id none := by
  unfold atCancel
  dsimp only
  split_ifs
  · exact cronDisable_callback _ _
  · rfl

theorem cronEnable_other (t : Timers) {id i : CronId} (h : i ≠ id) (factor : Byte)
    (callback : CronCallback) :
    (cronEnable t id factor callback).callbackArray i = t.callbackArray i := by
  unfold cronEnable
  dsimp only
  split_ifs <;> exact Function.update_of_ne h _ _

theorem cronEnable_self (t : Timers) (id : CronId) (factor : Byte) (callback : CronCallback) :
    (cronEnable t id factor callback).callbackArray id = some callback := by
  unfold cronEnable
  dsimp only
  split_ifs <;> simp only [Function.update_self]

theorem cronDisable_self (t : Timers) (id : CronId) :
    (cronDisable t id).callbackArray id = none := by
  unfold cronDisable
  dsimp only
  split_ifs <;> simp

theorem cronDisable_other (t : Timers) {id i : CronId} (h : i ≠ id) :
    (cronDisable t id).callbackArray i = t.callbackArray i := by
  unfold cronDisable
  dsimp only
  split_ifs <;> exact Function.update_of_ne h _ _

theorem atSchedule_other (t : Timers) {i : CronId} (h : i ≠ .idAt) (id : AtId) (delay : Byte)
    (cb : AtCallback) : (atSchedule t id delay cb).callbackArray i = t.callbackArray i :=
  cronEnable_other _ h _ _

theorem atCancel_other (t : Timers) {i : CronId} (h : i ≠ .idAt) (id : AtId) :
    (atCancel t id).callbackArray i = t.callbackArray i := by
  unfold atCancel
  dsimp only
  split_ifs
  · exact cronDisable_other _ h
  · rfl

theorem isRequired_iff (t : Timers) : isRequired t = true ↔ ∃ i, t.callbackArray i ≠ none := by
  unfold isRequired
  rw [List.any_eq_true]
  constructor
  · rintro ⟨i, -, hi⟩
    exact ⟨i, Option.isSome_iff_ne_none.mp hi⟩
  · rintro ⟨i, hi⟩
    exact ⟨i, by cases i <;> decide, Option.isSome_iff_ne_none.mpr hi⟩

theorem atAllEmpty_iff (t : Timers) : atAllEmpty t = true ↔ ∀ id, t.callback id = none := by
  unfold atAllEmpty
  rw [List.all_eq_true]
  constructor
  · intro hall id
    exact Option.isNone_iff_eq_none.mp (hall id (by cases id <;> decide))
  · intro hall id _
    exact Option.isNone_iff_eq_none.mpr (hall id)

/-- An entry that has just been enabled keeps the hardware timer required. -/
theorem cronEnable_eq (t : Timers) (id : CronId) (factor : Byte) (callback : CronCallback) :
    cronEnable t id factor callback =
      { t with
        callbackArray := Function.update t.callbackArray id (some callback)
        factorArray := Function.update t.factorArray id factor
        counterArray := Function.update t.counterArray id 0
        engaged := true } := by
  unfold cronEnable
  apply if_pos
  rw [isRequired_iff]
  exact ⟨id, by simp⟩

/-- The one function each entry is ever scheduled with. -/
def AtId.owner : AtId → AtCallback
  | .boot => .releaseWire
  | .menu => .stop
  | .menuTag => .tagRequest
  | .spi => .misconfirm

def TableSound (callback : AtId → Option AtCallback) : Prop :=
  ∀ id cb, callback id = some cb → cb = id.owner

theorem TableSound.update {callback : AtId → Option AtCallback} (h : TableSound callback)
    (id : AtId) {entry : Option AtCallback} (he : ∀ cb, entry = some cb → cb = id.owner) :
    TableSound (Function.update callback id entry) := by
  intro i cb hi
  by_cases hid : i = id
  · subst hid
    rw [Function.update_self] at hi
    exact he cb hi
  · rw [Function.update_of_ne hid] at hi
    exact h i cb hi

theorem TableSound.schedule {t : Timers} (h : TableSound t.callback) (id : AtId) (delay : Byte) :
    TableSound (atSchedule t id delay id.owner).callback := by
  rw [atSchedule_callback]
  exact h.update id fun cb hcb => (Option.some.inj hcb).symm

theorem TableSound.cancel {t : Timers} (h : TableSound t.callback) (id : AtId) :
    TableSound (atCancel t id).callback := by
  rw [atCancel_callback]
  exact h.update id fun cb hcb => absurd hcb (by simp)

end LedServer.Avr
