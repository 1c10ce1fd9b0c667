import Jzf407.Logic.TornRecord
import Jzf407.System.Storage

/-!
# Saves that fail part-way

Both records are written in place, without a checksum. A save that fails has stored the
beginning of the new record, and the rest of the old one follows it. Three results say when this
does no harm, each of them in both directions.

A failed configuration save is reported as not saved, but what is loaded at the next boot is
read from the torn record. It is the old configuration exactly when the stored bytes keep it
(`failed_save_keeps_iff`), which `TearKeeps` says byte by byte. Nothing prevents a mixture of two
addresses (`failed_save_mixes_addresses`).

A failed LED save leaves the cache as it was. That a later request for the old states is then
skipped is right only if the stored bytes were harmless (`Harmless`); a run skips no request wrongly
exactly when all its failed saves were (`skips_stored_iff`). The cache and the record agree as long
as they are (`Storage.Cached`, `Storage.cached_step_iff`).

The magic is the first thing that an LED save stores. Over a record without it, which stands for
two LEDs that are off, a torn save can vouch for LED bytes that nobody has written. It turns on
an LED that was off and that nobody asked for exactly when it ends between the magic and such a byte
(`RevealsNothing`, `saveField_oldOrRequested_iff`).

Both LED results rest on `loadState_writeFrom_leds`, which says what is loaded after the first `n`
bytes of a record: both LEDs off without a magic (`MagicAfter`), and else the bit of each LED, a
new or an old one.
-/

namespace Jzf407

open Foundation

/-! ### The configuration record -/

/-- What is loaded after a save of which `n` bytes were stored. -/
theorem loadConfig_saveConfig_eq_iff (mem : Memory) (c : NetworkConfig) (bus : Bus) :
    loadConfig (saveConfig mem c bus).1 = loadConfig mem ↔
      TearKeeps (readBytes mem configBase configLen) c.toBytes (bus.stored 0 configLen) := by
  rw [loadConfig, readBytes_saveConfig, loadConfig]
  exact getD_fromBytes_torn_eq_iff (length_readBytes mem configBase configLen) c.length_toBytes
    (bus.stored_le 0 configLen)

/-- **When a failed save keeps the configuration**: a save that reports an error leaves what is
loaded at the next boot as it was exactly when the bytes that it has stored keep it. -/
theorem failed_save_keeps_iff (mem : Memory) (c : NetworkConfig) (bus : Bus) :
    ((saveConfig mem c bus).2 = false →
        loadConfig (saveConfig mem c bus).1 = loadConfig mem) ↔
      (bus.ok 0 configLen = false →
        TearKeeps (readBytes mem configBase configLen) c.toBytes (bus.stored 0 configLen)) := by
  rw [ok_saveConfig, loadConfig_saveConfig_eq_iff]

/-- A save of the address 10.0.0.5 over 192.168.137.2 that fails at its sixth byte leaves the
address 10.168.137.2. -/
theorem failed_save_mixes_addresses :
    ¬ ∀ (mem : Memory) (c : NetworkConfig) (bus : Bus), (saveConfig mem c bus).2 = false →
        loadConfig (saveConfig mem c bus).1 = loadConfig mem := by
  intro h
  let old : Memory := fun a => NetworkConfig.default.toBytes.getD (a.toNat - 16) 0
  let new : NetworkConfig := { NetworkConfig.default with ip := ⟨10, 0, 0, 5⟩ }
  let bus : Bus := fun i => if i = 5 then .failed false else .done
  have hip := congrArg NetworkConfig.ip (h old new bus (by decide +kernel))
  exact absurd hip (by decide +kernel)

/-! ### The LED record -/

/-- The magic is complete once the first `n` bytes of a LED record are stored. -/
def MagicAfter (mem : Memory) (n : ℕ) : Prop :=
  ∀ i < 4, n ≤ i → mem (outputBase + UInt8.ofNat i) = outputMagic.getD i 0

/-- The bit of a LED byte. -/
def ledBit (b : UInt8) : Bool := b &&& 1 != 0

section TornRecord

variable (mem : Memory) (state : OutputState) {n : ℕ}

/-- The LED record once its first `n` bytes are stored. -/
theorem readBytes_writeFrom_leds (hn : n ≤ 8) :
    readBytes (writeFrom mem outputBase 0 (state.record.take n)) outputBase 8 =
      state.record.take n ++ (readBytes mem outputBase 8).drop n := by
  have hlen : (state.record.take n).length = n := by
    rw [List.length_take]
    exact Nat.min_eq_left hn
  rw [readBytes_writeFrom (by omega) (by decide), hlen]

/-- Each of its bytes is a new one, or an old one. -/
theorem getD_torn_leds (hn : n ≤ 8) {i : ℕ} (hi : i < 8) :
    (state.record.take n ++ (readBytes mem outputBase 8).drop n).getD i 0 =
      if i < n then state.record.getD i 0 else mem (outputBase + UInt8.ofNat i) := by
  rw [getD_torn hn, getD_readBytes hi]

/-- It begins with the magic if the bytes that are stored complete it. -/
theorem slice_torn_leds_eq_iff (hn : n ≤ 8) :
    slice (state.record.take n ++ (readBytes mem outputBase 8).drop n) 0 4 = outputMagic ↔
      MagicAfter mem n := by
  have hlen : 0 + 4 ≤ (state.record.take n ++ (readBytes mem outputBase 8).drop n).length := by
    have hrecord : state.record.length = 8 := rfl
    rw [List.length_append, List.length_take, List.length_drop, length_readBytes, hrecord]
    omega
  have hmagic : outputMagic = (List.range 4).map fun i => outputMagic.getD i 0 := rfl
  have hrecord : ∀ i < 4, state.record.getD i 0 = outputMagic.getD i 0 := by
    intro i hi
    rw [OutputState.record, List.getD, List.getElem?_append_left hi, List.getD]
  rw [slice_eq_map_getD hlen, hmagic, List.map_inj_left]
  refine forall_congr' fun i => ?_
  rw [List.mem_range]
  refine forall_congr' fun hi => ?_
  rw [Nat.zero_add, getD_torn_leds mem state hn (by omega)]
  by_cases hin : i < n
  · rw [if_pos hin, hrecord i hi]
    exact iff_of_true rfl fun hni => absurd hin (Nat.not_lt.mpr hni)
  · rw [if_neg hin]
    exact ⟨fun h _ => h, fun h => h (Nat.not_lt.mp hin)⟩

/-- What is loaded once the first `n` bytes of a LED record are stored. -/
theorem loadState_writeFrom_leds (hn : n ≤ 8) :
    (MagicAfter mem n → loadState (writeFrom mem outputBase 0 (state.record.take n)) =
        ⟨if 6 ≤ n then state.led1 else ledBit (mem 5),
          if 7 ≤ n then state.led2 else ledBit (mem 6)⟩) ∧
      (¬ MagicAfter mem n →
        loadState (writeFrom mem outputBase 0 (state.record.take n)) = ⟨false, false⟩) := by
  have hbits : ∀ b : Bool, ledBit b.toUInt8 = b := by decide
  have hslice := slice_torn_leds_eq_iff mem state hn
  rw [loadState, readBytes_writeFrom_leds mem state hn]
  refine ⟨fun h => ?_, fun h => if_neg (mt hslice.mp h)⟩
  rw [if_pos (hslice.mpr h), getD_torn_leds mem state hn (by omega),
    getD_torn_leds mem state hn (by omega)]
  congr 1
  · by_cases hin : 5 < n
    · rw [if_pos hin, if_pos (Nat.succ_le_of_lt hin)]
      exact hbits state.led1
    · rw [if_neg hin, if_neg fun hle => hin (Nat.lt_of_succ_le hle)]
      rfl
  · by_cases hin : 6 < n
    · rw [if_pos hin, if_pos (Nat.succ_le_of_lt hin)]
      exact hbits state.led2
    · rw [if_neg hin, if_neg fun hle => hin (Nat.lt_of_succ_le hle)]
      rfl

end TornRecord

/-- **The stored bytes are harmless**: the first `n` bytes of the record of a state complete no
magic, or store no bit other than the one that was loaded. -/
def Harmless (mem : Memory) (state : OutputState) (n : ℕ) : Prop :=
  MagicAfter mem n →
    (if 6 ≤ n then state.led1 else ledBit (mem 5)) = (loadState mem).led1 ∧
      (if 7 ≤ n then state.led2 else ledBit (mem 6)) = (loadState mem).led2

/-- Harmless bytes are those after which the same states are loaded. -/
theorem loadState_writeFrom_leds_eq_iff {mem : Memory} {state : OutputState} {n : ℕ}
    (hn : n ≤ 8) :
    loadState (writeFrom mem outputBase 0 (state.record.take n)) = loadState mem ↔
      Harmless mem state n := by
  obtain ⟨hcomplete, hincomplete⟩ := loadState_writeFrom_leds mem state hn
  unfold Harmless
  by_cases h : MagicAfter mem n
  · rw [hcomplete h, forall_prop_of_true h]
    constructor
    · intro hload
      rw [← hload]
      exact ⟨rfl, rfl⟩
    · rintro ⟨h₁, h₂⟩
      rw [h₁, h₂]
  · -- without the magic neither record is valid
    have hbefore : ¬ MagicAfter mem 0 := fun h₀ => h fun i hi _ => h₀ i hi (Nat.zero_le i)
    have hmem : loadState mem = ⟨false, false⟩ :=
      (loadState_writeFrom_leds mem state (Nat.zero_le 8)).2 hbefore
    rw [hincomplete h, hmem]
    exact iff_of_true rfl fun hcontra => absurd hcontra h

/-- A complete LED record is loaded. -/
theorem loadState_record (mem : Memory) (state : OutputState) :
    loadState (writeFrom mem outputBase 0 state.record) = state := by
  have hall : MagicAfter mem 8 := fun i hi hle => absurd hi (by omega)
  exact (loadState_writeFrom_leds mem state (Nat.le_refl 8)).1 hall

namespace Storage

/-- Every request that would be skipped, since the cache equals it, finds its state stored. This
speaks of all requests that could come next, whether the run makes them or not. -/
def SkipsStored (s : Storage) : Prop :=
  ∀ r, s.cache = some (s.requested r) → loadState s.mem = s.requested r

/-- The cache holds what is stored. -/
def Cached (s : Storage) : Prop := s.cache = some (loadState s.mem)

/-- The stored bytes of a save that fails are harmless. -/
def FailsHarmlessly (s : Storage) : Save → Prop
  | .leds r bus =>
      s.cache ≠ some (s.requested r) → bus.ok 0 8 = false →
        Harmless s.mem (s.requested r) (bus.stored 0 8)
  | .config _ _ => True

variable {s : Storage}

theorem skipsStored_iff {c : OutputState} (hc : s.cache = some c) :
    s.SkipsStored ↔ s.Cached := by
  have hreq : s.requested (.leds c.led1 c.led2) = c := rfl
  unfold SkipsStored Cached
  rw [hc]
  constructor
  · intro h
    have hstored := h (.leds c.led1 c.led2) (congrArg some hreq.symm)
    rw [hstored, hreq]
  · intro h r hr
    rw [← Option.some.inj h]
    exact Option.some.inj hr

/-- **One save** leaves the cache equal to what is stored exactly when it fails harmlessly or
not at all. -/
theorem cached_step_iff (hs : s.Cached) (e : Save) :
    (s.step e).Cached ↔ s.FailsHarmlessly e := by
  cases e with
  -- a configuration save touches neither the cache nor the LED record
  | config body bus =>
    refine iff_of_true ?_ trivial
    cases hparse : parseForm body s.cfg with
    | none =>
      rw [step_config_of_refused hparse]
      exact hs
    | some c =>
      rw [Cached, cache_step_config, mem_step_config hparse, loadState_saveConfig]
      exact hs
  | leds r bus =>
    by_cases hskip : s.cache = some (s.requested r)
    · rw [step, saveField, if_pos hskip]
      exact iff_of_true hs fun h => absurd hskip h
    · have hlen : (s.requested r).record.length = 8 := rfl
      rw [step, saveField, if_neg hskip, writeBytes_eq, hlen]
      change (if bus.ok 0 8 then some (s.requested r) else s.cache) =
        some (loadState (writeFrom s.mem outputBase 0
          ((s.requested r).record.take (bus.stored 0 8)))) ↔ _
      cases hok : bus.ok 0 8 with
      | true =>
        refine iff_of_true ?_ fun _ hno => absurd hno (by simp [hok])
        rw [if_pos rfl, Bus.stored_of_ok hok, List.take_of_length_le hlen.le, loadState_record]
      -- the cache stays, so it is right exactly if the torn record still reads as it says
      | false =>
        rw [if_neg Bool.false_ne_true, hs, Option.some.injEq, eq_comm,
          loadState_writeFrom_leds_eq_iff (bus.stored_le 0 8)]
        exact ⟨fun h _ _ => h, fun h => h hskip hok⟩

theorem exists_cache_step {c : OutputState} (hc : s.cache = some c) (e : Save) :
    ∃ d, (s.step e).cache = some d := by
  cases e with
  | config body bus =>
    rw [step]
    split <;> exact ⟨c, hc⟩
  | leds r bus =>
    rw [step, saveField]
    dsimp only
    split
    · exact ⟨c, hc⟩
    · dsimp only
      split
      · exact ⟨_, rfl⟩
      · exact ⟨c, hc⟩

end Storage

/-- Saves from given contents of the EEPROM. -/
def storageFrom (mem : Memory) : System Storage Save :=
  { storageSystem with init := fun s => s = Storage.boot mem }

/-- **When skipped requests are stored**: in a run from any contents of the EEPROM, every
request that would be skipped finds its state stored, after every save, exactly when every save
that fails does so harmlessly.

For the requests that the run itself makes the condition is enough. It is necessary for all that
could be made: after a save that fails with harm, the one that goes back to the old state is
skipped, and a run that makes another request instead may repair the record. -/
theorem skips_stored_iff (mem : Memory) (l : List Save) :
    (storageFrom mem).Throughout (fun _ _ t => t.SkipsStored) l ↔
      (storageFrom mem).Throughout (fun s e _ => s.FailsHarmlessly e) l := by
  refine System.throughout_iff (I := Storage.Cached) ?_ ?_ ?_
  · rintro _ rfl
    rfl
  · rintro s e _ hs rfl hfails
    exact (Storage.cached_step_iff hs e).mpr hfails
  · rintro s e _ hs rfl
    obtain ⟨d, hd⟩ := Storage.exists_cache_step hs e
    rw [Storage.skipsStored_iff hd, Storage.cached_step_iff hs]

/-- The LED1 save of a blank device fails at its seventh byte; the request to switch LED1 off
again is skipped, and both LEDs are loaded as on. -/
theorem skip_of_torn_record :
    ¬ ∀ (mem : Memory) (l : List Save) (s : Storage), storageSystem.Run (Storage.boot mem) l s →
        ∀ r, s.cache = some (s.requested r) → loadState s.mem = s.requested r := by
  intro h
  let save : Save := .leds (.led1 true) fun i => if i = 6 then .failed false else .done
  let s : Storage := (Storage.boot fun _ => 0xFF).step save
  have hrun : storageSystem.Run (Storage.boot fun _ => 0xFF) [save] s := .cons rfl (.nil s)
  have hskip : s.cache = some (s.requested (.led1 false)) := by decide +kernel
  exact absurd (h _ [save] s hrun (.led1 false) hskip) (by decide +kernel)

/-! ### LEDs that nobody switched on -/

/-- For each LED, what is loaded after a save is what was loaded before it or what it requested;
and no LED is on that was off and was not requested on. -/
structure OldOrRequested (before requested after : OutputState) : Prop where
  led1 : after.led1 = before.led1 ∨ after.led1 = requested.led1
  led2 : after.led2 = before.led2 ∨ after.led2 = requested.led2
  notTurnedOn : (after.led1 = true → before.led1 = true ∨ requested.led1 = true) ∧
    (after.led2 = true → before.led2 = true ∨ requested.led2 = true)

/-- **The stored bytes reveal nothing**: if the first `n` bytes of the record of a state complete
a magic that was not there before, then every LED byte after them has its bit clear, or its LED
is on in the state. -/
def RevealsNothing (mem : Memory) (state : OutputState) (n : ℕ) : Prop :=
  ¬ MagicAfter mem 0 → MagicAfter mem n →
    (n < 6 → ledBit (mem 5) = true → state.led1 = true) ∧
      (n < 7 → ledBit (mem 6) = true → state.led2 = true)

theorem MagicAfter.mono {mem : Memory} {m n : ℕ} (h : MagicAfter mem m) (hmn : m ≤ n) :
    MagicAfter mem n := fun i hi hn => h i hi (hmn.trans hn)

theorem oldOrRequested_self (before requested : OutputState) :
    OldOrRequested before requested before where
  led1 := .inl rfl
  led2 := .inl rfl
  notTurnedOn := ⟨.inl, .inl⟩

/-- A state of which each LED is the old or the requested one. -/
theorem OldOrRequested.of_or {before requested after : OutputState}
    (h₁ : after.led1 = before.led1 ∨ after.led1 = requested.led1)
    (h₂ : after.led2 = before.led2 ∨ after.led2 = requested.led2) :
    OldOrRequested before requested after where
  led1 := h₁
  led2 := h₂
  notTurnedOn := by
    constructor
    · intro h
      rwa [h, eq_comm, eq_comm (a := true)] at h₁
    · intro h
      rwa [h, eq_comm, eq_comm (a := true)] at h₂

/-- A LED that was loaded as off is loaded as off or as requested. -/
private theorem eq_false_or_eq_iff {p : Prop} [Decidable p] {requested old : Bool} :
    ((if p then requested else old) = false ∨ (if p then requested else old) = requested) ↔
      (¬ p → old = true → requested = true) := by
  by_cases hp : p
  · simp [hp]
  · cases old <;> cases requested <;> simp [hp]

/-- **When torn LED bytes are harmless for each LED.** -/
theorem oldOrRequested_writeFrom_leds_iff {mem : Memory} {state : OutputState} {n : ℕ}
    (hn : n ≤ 8) :
    OldOrRequested (loadState mem) state
        (loadState (writeFrom mem outputBase 0 (state.record.take n))) ↔
      RevealsNothing mem state n := by
  obtain ⟨hcomplete, hincomplete⟩ := loadState_writeFrom_leds mem state hn
  obtain ⟨hvalid, hinvalid⟩ := loadState_writeFrom_leds mem state (Nat.zero_le 8)
  by_cases hbefore : MagicAfter mem 0
  · -- over a valid record each LED byte is an old or a new one
    refine iff_of_true ?_ fun hno => absurd hbefore hno
    have hmem : loadState mem = ⟨ledBit (mem 5), ledBit (mem 6)⟩ := hvalid hbefore
    rw [hcomplete (hbefore.mono (Nat.zero_le n)), hmem]
    refine .of_or ?_ ?_
    · dsimp only
      split
      · exact .inr rfl
      · exact .inl rfl
    · dsimp only
      split
      · exact .inr rfl
      · exact .inl rfl
  · have hmem : loadState mem = ⟨false, false⟩ := hinvalid hbefore
    by_cases hafter : MagicAfter mem n
    · rw [RevealsNothing, forall_prop_of_true hbefore, forall_prop_of_true hafter,
        hcomplete hafter, hmem, ← Nat.not_le (a := 6), ← Nat.not_le (a := 7),
        ← eq_false_or_eq_iff, ← eq_false_or_eq_iff]
      exact ⟨fun h => ⟨h.led1, h.led2⟩, fun h => .of_or h.1 h.2⟩
    · rw [hincomplete hafter, hmem]
      exact iff_of_true (oldOrRequested_self _ _) fun _ hmagic => absurd hmagic hafter

/-- **When a torn LED save is safe**: after a save that stops at any byte, each LED is loaded as
before or as requested, and none is turned on that was off and not asked for, exactly when the
save is skipped or the bytes that it stores reveal nothing. What stops the save (an error, a
reset, a loss of power) does not matter, only how many bytes it has stored. -/
theorem saveField_oldOrRequested_iff (s : Storage) (r : LedSave) (bus : Bus) :
    OldOrRequested (loadState s.mem) (s.requested r) (loadState (s.saveField r bus).mem) ↔
      (s.cache ≠ some (s.requested r) →
        RevealsNothing s.mem (s.requested r) (bus.stored 0 8)) := by
  have hlen : (s.requested r).record.length = 8 := rfl
  by_cases hskip : s.cache = some (s.requested r)
  · rw [Storage.saveField, if_pos hskip]
    exact iff_of_true (oldOrRequested_self _ _) fun h => absurd hskip h
  · rw [Storage.saveField, if_neg hskip, writeBytes_eq, hlen,
      forall_prop_of_true (show s.cache ≠ some (s.requested r) from hskip)]
    exact oldOrRequested_writeFrom_leds_iff (bus.stored_le 0 8)

/-- The request to switch LED1 on stops after five bytes on a blank device: LED2 is loaded as
on. -/
theorem torn_save_turns_on_led2 :
    ¬ ∀ (s : Storage) (r : LedSave) (bus : Bus),
      OldOrRequested (loadState s.mem) (s.requested r) (loadState (s.saveField r bus).mem) := by
  intro h
  have hsafe := h (Storage.boot fun _ => 0xFF) (.led1 true)
    fun i => if i = 5 then .failed false else .done
  exact absurd hsafe.led2 (by decide +kernel)

end Jzf407
