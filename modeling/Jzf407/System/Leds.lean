import Jzf407.System.TornSave

/-!
# The LEDs and their stored states

The states of the two LEDs are kept three times: in the levels of their pins, which are
active-low (`LedPins`), in the cache, and in the LED record of the EEPROM. The MQTT task sets the
pins and then saves the states, and the save is skipped when the cache already holds them
(`Leds.handleEvent`).

`commanded` says what the LEDs are for: they show the last command. It is stated on messages
alone, with the words for on and off and the three topics in its text, so it can be compared with
the documentation of the device; a retained message commands nothing.

As long as the bus works the three copies follow it together (`InStep.handleEvent`), over any
messages and from any contents of the EEPROM (`leds_follow_commands`). At a boot the pins are
switched to the loaded states and the cache is filled from them, so `InStep` holds at first. A
command for one LED saves the state of the other from the cache, and the invariant is what makes it
the state that the other LED shows.
-/

namespace Jzf407

open Foundation

/-! ### Pins -/

/-- The level of an output pin. -/
inductive Level
  | low
  | high
  deriving DecidableEq, Repr

/-- The two LEDs. -/
inductive LedId
  | led1
  | led2
  deriving DecidableEq, Repr

/-- The levels of the LED pins. -/
structure LedPins where
  led1 : Level
  led2 : Level
  deriving DecidableEq, Repr

/-- The level that an LED is driven to. -/
def driveActiveLow (on : Bool) : Level := if on then .low else .high

namespace LedPins

/-- The levels that the pins are registered with. -/
def registered : LedPins := ⟨.high, .high⟩

/-- Switch an LED. -/
def set (pins : LedPins) (led : LedId) (on : Bool) : LedPins :=
  match led with
  | .led1 => { pins with led1 := driveActiveLow on }
  | .led2 => { pins with led2 := driveActiveLow on }

/-- Whether an LED is on: its pin is low. -/
def getLed (pins : LedPins) : LedId → Bool
  | .led1 => pins.led1 == .low
  | .led2 => pins.led2 == .low

/-- The pins show these states. -/
def shown (pins : LedPins) : OutputState := ⟨pins.getLed .led1, pins.getLed .led2⟩

variable (pins : LedPins)

@[simp]
theorem shown_set_led1 (on : Bool) :
    (pins.set .led1 on).shown = { pins.shown with led1 := on } := by
  cases on <;> rfl

@[simp]
theorem shown_set_led2 (on : Bool) :
    (pins.set .led2 on).shown = { pins.shown with led2 := on } := by
  cases on <;> rfl

end LedPins

/-! ### The device -/

/-- A received message. -/
structure Publish where
  topic : Str
  payload : List UInt8
  retain : Bool
  deriving DecidableEq, Repr

/-- The LED pins and the storage. -/
structure Leds where
  pins : LedPins
  storage : Storage

namespace Leds

/-- The LEDs after a boot: they are switched to the loaded states. -/
def boot (mem : Memory) : Leds :=
  let storage := Storage.boot mem
  let state := loadState mem
  ⟨(LedPins.registered.set .led1 state.led1).set .led2 state.led2, storage⟩

/-- Save the states while the bus works. -/
def save (d : Leds) (r : LedSave) : Leds := { d with storage := d.storage.saveField r Bus.allDone }

/-- What a command does to the LEDs. -/
def perform (d : Leds) : OutputCmd → Leds
  | .led1 on => save { d with pins := d.pins.set .led1 on } (.led1 on)
  | .led2 on => save { d with pins := d.pins.set .led2 on } (.led2 on)
  | .allLeds on => save { d with pins := (d.pins.set .led1 on).set .led2 on } (.leds on on)
  | .reboot => boot d.storage.mem
  -- these touch neither the LEDs nor the EEPROM
  | .relay _ | .ping | .unknown => d

/-- **The MQTT task handles a message**, the LED part of it. -/
def handleEvent (d : Leds) (p : Publish) : Leds :=
  -- a retained message is an old command, sent again with the subscription
  if p.retain then d
  else match messageCmd p.topic p.payload with
    | some cmd => d.perform cmd
    | none => d

end Leds

/-! ### What the LEDs are for -/

/-- The words for on. -/
def onWords : List Str := ["1".toList, "on".toList, "ON".toList, "true".toList]

/-- The words for off. -/
def offWords : List Str := ["0".toList, "off".toList, "OFF".toList, "false".toList]

/-- The state that a payload commands. -/
def commandWord (payload : List UInt8) : Option Bool :=
  if payload ∈ onWords.map asBytes then some true
  else if payload ∈ offWords.map asBytes then some false
  else none

/-- **The commanded LED states after a message**: a word for on or off, not retained, on one of
the three LED topics, switches the LEDs of the topic; nothing else does anything. -/
def commanded (s : OutputState) (p : Publish) : OutputState :=
  if p.retain then s
  else match commandWord p.payload with
    | none => s
    | some on =>
      if p.topic = "stm32/led/1".toList then { s with led1 := on }
      else if p.topic = "stm32/led/2".toList then { s with led2 := on }
      else if p.topic = "stm32/led/all".toList then ⟨on, on⟩
      else s

theorem parseBool_eq_commandWord (payload : List UInt8) :
    parseBool payload = commandWord payload := by
  simp only [parseBool, commandWord, onWords, offWords, List.map_cons, List.map_nil,
    List.mem_cons, List.not_mem_nil, or_false]

/-! ### Three copies of one state -/

/-- The pins, the cache and the stored record agree on the LED states. -/
structure InStep (d : Leds) (s : OutputState) : Prop where
  pins : d.pins.shown = s
  cache : d.storage.cache = some s
  stored : loadState d.storage.mem = s

theorem inStep_boot (mem : Memory) : InStep (Leds.boot mem) (loadState mem) where
  pins := by simp [Leds.boot]
  cache := rfl
  stored := rfl

variable {d : Leds} {s : OutputState}

/-- A save on a working bus keeps cache and record in step. -/
theorem InStep.save (h : InStep d s) (pins : LedPins) (r : LedSave)
    (hpins : pins.shown = r.update s) :
    InStep (Leds.save { d with pins := pins } r) (r.update s) := by
  have hreq : d.storage.requested r = r.update s := by
    rw [Storage.requested, h.cache, Option.getD_some]
  have hcached : d.storage.Cached := h.cache.trans (congrArg some h.stored.symm)
  have hstep : (d.storage.saveField r Bus.allDone).Cached :=
    (Storage.cached_step_iff hcached (.leds r Bus.allDone)).mpr fun _ hno => by simp at hno
  have hcache : (d.storage.saveField r Bus.allDone).cache = some (r.update s) := by
    rw [Storage.saveField, hreq]
    by_cases hskip : d.storage.cache = some (r.update s)
    · rw [if_pos hskip]
      exact hskip
    · rw [if_neg hskip, writeBytes_eq]
      simp
  exact ⟨hpins, hcache, Option.some.inj (hstep.symm.trans hcache)⟩

/-- A command of a topic whose payload is irrelevant switches no LED. -/
theorem InStep.special (h : InStep d s) (topic : Str) :
    InStep (match dispatchSpecial topic with
      | some cmd => d.perform cmd
      | none => d) s := by
  unfold dispatchSpecial
  by_cases hping : topic = "stm32/ping".toList
  · rw [if_pos hping]
    exact h
  · rw [if_neg hping]
    by_cases hreboot : topic = "stm32/cmd/reboot".toList
    · rw [if_pos hreboot]
      exact h.stored ▸ inStep_boot d.storage.mem
    · rw [if_neg hreboot]
      exact h

/-- **One message** keeps the three copies in step with the commands. -/
theorem InStep.handleEvent (h : InStep d s) (p : Publish) :
    InStep (d.handleEvent p) (commanded s p) := by
  have hpins := h.pins
  unfold Leds.handleEvent commanded
  by_cases hretain : p.retain = true
  · rw [if_pos hretain, if_pos hretain]
    exact h
  · rw [if_neg hretain, if_neg hretain, ← parseBool_eq_commandWord, messageCmd, dispatch]
    cases parseBool p.payload with
    | none => exact h.special p.topic
    | some on =>
      simp only [Option.bind_eq_bind, Option.bind_some]
      by_cases h₁ : p.topic = "stm32/led/1".toList
      · rw [if_pos h₁, if_pos h₁]
        exact h.save _ (.led1 on) (by simp [hpins, LedSave.update])
      by_cases h₂ : p.topic = "stm32/led/2".toList
      · rw [if_neg h₁, if_pos h₂, if_neg h₁, if_pos h₂]
        exact h.save _ (.led2 on) (by simp [hpins, LedSave.update])
      by_cases hall : p.topic = "stm32/led/all".toList
      · rw [if_neg h₁, if_neg h₂, if_pos hall, if_neg h₁, if_neg h₂, if_pos hall]
        exact h.save _ (.leds on on) (by simp [hpins, LedSave.update])
      · rw [if_neg h₁, if_neg h₂, if_neg hall, if_neg h₁, if_neg h₂, if_neg hall]
        by_cases hrelay : p.topic = "stm32/relay".toList
        · rw [if_pos hrelay]
          exact h
        · rw [if_neg hrelay]
          exact h.special p.topic

/-- Messages keep the three copies in step. -/
theorem InStep.run (h : InStep d s) (l : List Publish) :
    InStep (l.foldl Leds.handleEvent d) (l.foldl commanded s) := by
  induction l generalizing d s with
  | nil => exact h
  | cons p l ih => exact ih (h.handleEvent p)

/-- The levels of the pins are given by the states that they show. -/
theorem shown_injective {pins pins' : LedPins} (h : pins.shown = pins'.shown) : pins = pins' := by
  obtain ⟨_ | _, _ | _⟩ := pins <;> obtain ⟨_ | _, _ | _⟩ := pins' <;> first | rfl | cases h

/-- **The LEDs show the last command.** From any contents of the EEPROM, after any messages, the
pins, the cache and what a boot would load are the states that the messages have commanded over
those of the boot; and so the LEDs would show them again after a reset. -/
theorem leds_follow_commands (mem : Memory) (l : List Publish) :
    let d := l.foldl Leds.handleEvent (Leds.boot mem)
    let s := l.foldl commanded (loadState mem)
    (d.pins.getLed .led1 = s.led1 ∧ d.pins.getLed .led2 = s.led2) ∧ d.storage.cache = some s ∧
      loadState d.storage.mem = s ∧ (Leds.boot d.storage.mem).pins = d.pins := by
  intro d s
  have h : InStep d s := (inStep_boot mem).run l
  refine ⟨⟨congrArg OutputState.led1 h.pins, congrArg OutputState.led2 h.pins⟩, h.cache, h.stored,
    shown_injective ?_⟩
  rw [(inStep_boot d.storage.mem).pins, h.stored, h.pins]

end Jzf407
