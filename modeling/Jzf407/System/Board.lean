import Jzf407.Foundation.Memory
import Jzf407.Logic.LedDispatch
import Jzf407.Web.Run

/-!
# The tasks that share the EEPROM

The MQTT task saves the LED states, the two web tasks save the configuration, and all of them
can reset the device. A save takes the EEPROM mutex and writes its record byte by byte,
waiting for a write cycle after each byte; every wait is a point at which other tasks run.
`Board` holds the memory, the mutex and the phase of each task (`Phase`), and `Board.step` is what
one task does between two such points (`BoardEvent`). What a task has read before such a point it
acts on afterwards, whatever the others have done in the meantime; the cache of the LED states is
read before the mutex is taken, and written when the save is over.

No reset takes the mutex. A save releases it before it resets the device itself, but a reset
by one task finds the save of another wherever it is (`Phase.PartWay`), and only the memory
survives (`Board.safeReboot`).

The records are those of the two saves (`Job`): eight bytes of LED states at `outputBase`, and a
configuration at `configBase`. `loadState` and `loadConfig` read them back after a reset.
`boardSystem` begins with any contents of the EEPROM. The bus does not fail here; saves that fail
are the subject of another module.
-/

namespace Jzf407

open Foundation

/-! ### The records -/

/-- The LED states. -/
structure OutputState where
  led1 : Bool
  led2 : Bool
  deriving DecidableEq, Repr

/-- The magic of the LED record. -/
def outputMagic : List UInt8 := [0xCA, 0xFE, 0xF0, 0x0D]

/-- The addresses of the two records. -/
def outputBase : UInt8 := 0
def configBase : UInt8 := 16

/-- The LED record. -/
def OutputState.record (s : OutputState) : List UInt8 :=
  outputMagic ++ [0, s.led1.toUInt8, s.led2.toUInt8, 0]

/-- Load the LED states. -/
def loadState (mem : Memory) : OutputState :=
  let buf := readBytes mem outputBase 8
  if slice buf 0 4 = outputMagic then
    ⟨buf.getD 5 0 &&& 1 != 0, buf.getD 6 0 &&& 1 != 0⟩
  else ⟨false, false⟩

/-- Load the configuration; a record that is not valid reads as the default one. -/
def loadConfig (mem : Memory) : NetworkConfig :=
  (NetworkConfig.fromBytes (readBytes mem configBase configLen)).getD NetworkConfig.default

theorem wellFormed_loadConfig (mem : Memory) : (loadConfig mem).WellFormed := by
  unfold loadConfig
  cases h : NetworkConfig.fromBytes (readBytes mem configBase configLen) with
  | none => exact NetworkConfig.wellFormed_default
  | some c => exact NetworkConfig.wellFormed_of_fromBytes h

/-! ### Tasks -/

/-- The tasks that write the EEPROM or reset the device. -/
inductive Task
  | mqtt
  | web (k : Socket)
  deriving DecidableEq, Repr

/-- A record to write. -/
inductive Job
  | leds (s : OutputState)
  | config (c : NetworkConfig)
  deriving DecidableEq

/-- The bytes of the record. -/
def Job.bytes : Job → List UInt8
  | .leds s => s.record
  | .config c => c.toBytes

/-- The address of the record. -/
def Job.base : Job → UInt8
  | .leds _ => outputBase
  | .config _ => configBase

/-- Where a task is: doing nothing with the EEPROM, waiting for the mutex, in the write cycle
after the `n`-th byte, or waiting to reset the device. -/
inductive Phase
  | idle
  | waiting (j : Job)
  | writing (j : Job) (n : ℕ)
  | rebooting
  deriving DecidableEq

/-- A write that has not written all its bytes. -/
def Phase.PartWay (p : Phase) : Prop := ∃ j n, p = .writing j n ∧ n < j.bytes.length

/-- The device: its EEPROM and the mutex of it, the cached LED states, the configuration that
the tasks were started with, the configurations that saves have submitted since, and the
phase of each task. -/
structure Board where
  mem : Memory
  holder : Option Task
  cache : Option OutputState
  cfg : NetworkConfig
  submitted : List NetworkConfig
  phase : Task → Phase

namespace Board

/-- Move a task to a phase. -/
def setPhase (b : Board) (t : Task) (p : Phase) : Board :=
  { b with phase := Function.update b.phase t p }

/-- Write the `n`-th byte of a record and enter its write cycle. -/
def writeNext (b : Board) (t : Task) (j : Job) (n : ℕ) : Board :=
  setPhase { b with mem := writeByte b.mem (j.base + UInt8.ofNat n) (j.bytes.getD n 0) } t
    (.writing j (n + 1))

/-- Take the mutex and write the first byte, or wait for the mutex. -/
def lock (b : Board) (t : Task) (j : Job) : Board :=
  if b.holder = none then writeNext { b with holder := some t } t j 0
  else b.setPhase t (.waiting j)

/-- The save of a changed LED state; an unchanged one is not written. -/
def saveField (b : Board) (update : OutputState → OutputState) : Board :=
  let state := update (b.cache.getD ⟨false, false⟩)
  if b.cache = some state then b else b.lock .mqtt (.leds state)

/-- The end of a write: the mutex is released, and the task goes on. -/
def finish (b : Board) (t : Task) : Job → Board
  | .leds s => setPhase { b with holder := none, cache := some s } t .idle
  -- the mutex is released before the answer is sent and the reset is due
  | .config _ => setPhase { b with holder := none } t .rebooting

/-- The device after a reset: all tasks start over, with what they load from the memory. -/
def boot (mem : Memory) : Board where
  mem := mem
  holder := none
  cache := some (loadState mem)
  cfg := loadConfig mem
  submitted := []
  phase _ := .idle

/-- **Reset the device.** Only the memory survives. -/
def safeReboot (b : Board) : Board := boot b.mem

end Board

/-- What one task does between two waits. -/
inductive BoardEvent
  | message (topic : Str) (payload : List UInt8) (retain : Bool)
  | save (k : Socket) (body : Str)
  | rebootPost (k : Socket)
  | acquire (t : Task)
  | writeCycle (t : Task)
  | rebootDelay (k : Socket)

/-- The MQTT task handles a message. -/
def Board.handleEvent (b : Board) (topic : Str) (payload : List UInt8) (retain : Bool) : Board :=
  -- a retained message is an old command, sent again with the subscription
  if retain then b
  else match messageCmd topic payload with
    | some (.led1 on) => b.saveField fun s => { s with led1 := on }
    | some (.led2 on) => b.saveField fun s => { s with led2 := on }
    | some (.allLeds on) => b.saveField fun _ => ⟨on, on⟩
    -- no mutex is taken here
    | some .reboot => b.safeReboot
    | _ => b

/-- **One step of the board.** -/
def Board.step (b : Board) : BoardEvent → Option Board
  | .message topic payload retain =>
      if b.phase .mqtt = .idle then some (b.handleEvent topic payload retain) else none
  | .save k body =>
      if b.phase (.web k) = .idle then
        match parseForm body b.cfg with
        | some c => some (lock { b with submitted := c :: b.submitted } (.web k) (.config c))
        | none => some b
      else none
  | .rebootPost k =>
      if b.phase (.web k) = .idle then some (b.setPhase (.web k) .rebooting) else none
  | .acquire t =>
      match b.phase t with
      | .waiting j =>
          if b.holder = none then some (writeNext { b with holder := some t } t j 0) else none
      | _ => none
  | .writeCycle t =>
      match b.phase t with
      | .writing j n => some (if n < j.bytes.length then b.writeNext t j n else b.finish t j)
      | _ => none
  | .rebootDelay k => if b.phase (.web k) = .rebooting then some b.safeReboot else none

/-- The event resets the device. -/
def BoardEvent.Reboots (b : Board) : BoardEvent → Prop
  | .message topic payload retain => retain = false ∧ messageCmd topic payload = some .reboot
  | .rebootDelay k => b.phase (.web k) = .rebooting
  | _ => False

/-- **The board as a system**, from any contents of the EEPROM. -/
def boardSystem : System Board BoardEvent where
  init b := ∃ mem, b = Board.boot mem
  step b e b' := b.step e = some b'

end Jzf407
