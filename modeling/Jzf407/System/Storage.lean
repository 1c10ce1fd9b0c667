import Jzf407.Logic.ConfigRecord
import Jzf407.System.Reboot

/-!
# Saves over a bus that fails

A save writes its record with one bus transaction for each byte, and gives up at the first
transaction that fails (`writeBytes`). What is in the EEPROM then is the beginning of the new record
and the rest of the old one (`writeBytes_eq`). The failed transaction itself may or may not have
stored its byte: `Transfer` has both outcomes, `Bus` one for each byte, and `Bus.stored` counts the
bytes that a write has stored in the end.

`Storage` is the EEPROM with the cached LED states, and a step of `storageSystem` is a whole
save, of the LED states (`Storage.saveField`) or of a submitted configuration (`saveConfig`), over
any bus. The two records do not overlap, so neither save touches what the other has stored, whether
it succeeds or not: `loadConfig_saveField` and `loadState_saveConfig` for one save, and
`saves_independent` for runs. A save that succeeds is loaded (`loadConfig_saveConfig`).

The tasks of the board write byte by byte. A save of theirs that finds the mutex free and is not
disturbed ends as a step of `storageSystem` over a bus without errors (`Board.run_saveField`,
`Board.run_save`), so the two descriptions of a save agree where both apply.

`record_read_exactly` is about the way back: what the configuration loader makes of any bytes at
all, and that a read which fails gives the default configuration.
-/

namespace Jzf407

open Foundation

/-! ### The bus -/

/-- How the transaction of one byte ends: well, or with an error, the byte being stored or
not. -/
inductive Transfer
  | done
  | failed (stored : Bool)
  deriving DecidableEq, Repr

/-- The transactions of a write, by the offset of their byte. -/
abbrev Bus := ℕ → Transfer

namespace Bus

/-- Whether the transactions of `n` bytes from offset `i` on end well. -/
def ok (bus : Bus) (i : ℕ) : ℕ → Bool
  | 0 => true
  | n + 1 => bus i = .done && bus.ok (i + 1) n

/-- How many of `n` bytes are stored, from offset `i` on, until a transaction fails. -/
def stored (bus : Bus) (i : ℕ) : ℕ → ℕ
  | 0 => 0
  | n + 1 =>
      match bus i with
      | .done => bus.stored (i + 1) n + 1
      | .failed true => 1
      | .failed false => 0

theorem stored_le (bus : Bus) (i n : ℕ) : bus.stored i n ≤ n := by
  induction n generalizing i with
  | zero => exact Nat.le_refl 0
  | succ n ih =>
    have := ih (i + 1)
    unfold stored
    split <;> omega

/-- The bus on which every transaction ends well. -/
def allDone : Bus := fun _ => .done

@[simp]
theorem ok_allDone (i n : ℕ) : allDone.ok i n = true := by
  induction n generalizing i with
  | zero => rfl
  | succ n ih => simp [ok, ih, allDone]

theorem stored_of_ok {bus : Bus} {i n : ℕ} (h : bus.ok i n = true) : bus.stored i n = n := by
  induction n generalizing i with
  | zero => rfl
  | succ n ih =>
    obtain ⟨hdone, hrest⟩ : bus i = .done ∧ bus.ok (i + 1) n = true := by simpa [ok] using h
    simp only [stored, hdone, ih hrest]

end Bus

/-- **Write bytes from offset `i` on**, one transaction each, up to the first error; and whether
there was none. -/
def writeBytes (mem : Memory) (startAddr : UInt8) (bus : Bus) (i : ℕ) :
    List UInt8 → Memory × Bool
  | [] => (mem, true)
  | byte :: rest =>
      let written := writeByte mem (startAddr + UInt8.ofNat i) byte
      match bus i with
      | .done => writeBytes written startAddr bus (i + 1) rest
      | .failed stored => (if stored then written else mem, false)

/-- **What a write leaves**: the bytes stored before it gave up. -/
theorem writeBytes_eq (mem : Memory) (startAddr : UInt8) (bus : Bus) (i : ℕ)
    (data : List UInt8) :
    writeBytes mem startAddr bus i data =
      (writeFrom mem startAddr i (data.take (bus.stored i data.length)),
        bus.ok i data.length) := by
  induction data generalizing mem i with
  | nil => rfl
  | cons byte rest ih =>
    rw [writeBytes, List.length_cons, Bus.stored, Bus.ok]
    cases hbus : bus i with
    | done => simp [ih, writeFrom]
    | failed stored => cases stored <;> simp [writeFrom]

/-! ### The two records -/

/-- Save a configuration. -/
def saveConfig (mem : Memory) (cfg : NetworkConfig) (bus : Bus) : Memory × Bool :=
  writeBytes mem configBase bus 0 cfg.toBytes

/-- Load the configuration when the read may fail: then, too, it is the default one. -/
def loadConfigRead (readOk : Bool) (mem : Memory) : NetworkConfig :=
  if readOk then loadConfig mem else NetworkConfig.default

section Records

variable {mem : Memory} {data : List UInt8}

/-- Writing part of the LED record does not change the stored configuration. -/
theorem loadConfig_writeFrom_leds (hdata : data.length ≤ 8) :
    loadConfig (writeFrom mem outputBase 0 data) = loadConfig mem := by
  rw [loadConfig, readBytes_writeFrom_of_outside fun k hk => ?_, loadConfig]
  rw [Nat.zero_add]
  exact Board.leds_outside (by omega) le_rfl

/-- Writing part of the configuration record does not change the stored LED states. -/
theorem loadState_writeFrom_config (hdata : data.length ≤ configLen) :
    loadState (writeFrom mem configBase 0 data) = loadState mem := by
  rw [loadState, readBytes_writeFrom_of_outside fun k hk => ?_, loadState]
  have hlen : configLen = 175 := rfl
  have haddr : (configBase + UInt8.ofNat (0 + k)).toNat = 16 + k := by
    rw [UInt8.toNat_add, UInt8.toNat_ofNat', Nat.mod_eq_of_lt (show 0 + k < 2 ^ 8 by omega)]
    simp only [configBase, UInt8.reduceToNat, Nat.zero_add]
    exact Nat.mod_eq_of_lt (by omega)
  have hbase : outputBase.toNat = 0 := rfl
  exact outside_of_le (by omega)

/-- A save reports an error when a transaction fails. -/
theorem ok_saveConfig (mem : Memory) (cfg : NetworkConfig) (bus : Bus) :
    (saveConfig mem cfg bus).2 = bus.ok 0 configLen := by
  rw [saveConfig, writeBytes_eq, cfg.length_toBytes]

/-- **The torn record**: what is read back after a save of which `n` bytes were stored. -/
theorem readBytes_saveConfig (mem : Memory) (cfg : NetworkConfig) (bus : Bus) :
    readBytes (saveConfig mem cfg bus).1 configBase configLen =
      cfg.toBytes.take (bus.stored 0 configLen) ++
        (readBytes mem configBase configLen).drop (bus.stored 0 configLen) := by
  have hlen := cfg.length_toBytes
  have hle := bus.stored_le 0 configLen
  have htake : (cfg.toBytes.take (bus.stored 0 configLen)).length = bus.stored 0 configLen := by
    rw [List.length_take, hlen]
    exact Nat.min_eq_left hle
  rw [saveConfig, writeBytes_eq, hlen, readBytes_writeFrom (by omega) (by decide), htake]

end Records

/-! ### Saves -/

/-- The LED save functions and their arguments. -/
inductive LedSave
  | led1 (on : Bool)
  | led2 (on : Bool)
  | leds (led1 led2 : Bool)
  deriving DecidableEq, Repr

/-- What a save does to the cached states. -/
def LedSave.update : LedSave → OutputState → OutputState
  | .led1 on, s => { s with led1 := on }
  | .led2 on, s => { s with led2 := on }
  | .leds on₁ on₂, _ => ⟨on₁, on₂⟩

/-- The EEPROM, the cached LED states, and the configuration loaded at boot. -/
structure Storage where
  mem : Memory
  cache : Option OutputState
  cfg : NetworkConfig

namespace Storage

/-- The device after a boot at which both records could be read. -/
def boot (mem : Memory) : Storage := ⟨mem, some (loadState mem), loadConfig mem⟩

/-- The state that a save requests. -/
def requested (s : Storage) (r : LedSave) : OutputState := r.update (s.cache.getD ⟨false, false⟩)

/-- **Save a changed LED state.** The cache follows only a write without an error. -/
def saveField (s : Storage) (r : LedSave) (bus : Bus) : Storage :=
  let state := s.requested r
  if s.cache = some state then s
  else
    let (mem, ok) := writeBytes s.mem outputBase bus 0 state.record
    { s with mem := mem, cache := if ok then some state else s.cache }

end Storage

/-- A save: of the LED states, or of a submitted form, each over its own bus. -/
inductive Save
  | leds (r : LedSave) (bus : Bus)
  | config (body : Str) (bus : Bus)

/-- **One save.** -/
def Storage.step (s : Storage) : Save → Storage
  | .leds r bus => s.saveField r bus
  | .config body bus =>
      match parseForm body s.cfg with
      | some c => { s with mem := (saveConfig s.mem c bus).1 }
      | none => s

/-- **Saves one after the other**, from any contents of the EEPROM. -/
def storageSystem : System Storage Save where
  init s := ∃ mem, s = Storage.boot mem
  step s e t := s.step e = t

namespace Storage

variable {s t : Storage}

@[simp]
theorem cfg_step (s : Storage) (e : Save) : (s.step e).cfg = s.cfg := by
  cases e with
  | leds r bus =>
    rw [step, saveField]
    dsimp only
    split <;> rfl
  | config body bus =>
    rw [step]
    split <;> rfl

/-- An accepted form is saved. -/
theorem mem_step_config {body : Str} {c : NetworkConfig} (h : parseForm body s.cfg = some c)
    (bus : Bus) : (s.step (.config body bus)).mem = (saveConfig s.mem c bus).1 := by
  rw [step, h]

/-- A refused form changes nothing. -/
theorem step_config_of_refused {body : Str} (h : parseForm body s.cfg = none) (bus : Bus) :
    s.step (.config body bus) = s := by
  rw [step, h]

@[simp]
theorem cache_step_config (s : Storage) (body : Str) (bus : Bus) :
    (s.step (.config body bus)).cache = s.cache := by
  rw [step]
  split <;> rfl

/-- The configuration of the boot is the current one in every later save. -/
theorem cfg_of_run {l : List Save} (h : storageSystem.Run s l t) : t.cfg = s.cfg := by
  refine h.invariant (P := fun u => u.cfg = s.cfg) ?_ rfl
  rintro u e _ hu rfl
  rw [cfg_step, hu]

/-- What a save of the LED states leaves in the EEPROM. -/
theorem mem_saveField (s : Storage) (r : LedSave) (bus : Bus) :
    (s.saveField r bus).mem = s.mem ∨
      (s.saveField r bus).mem =
        writeFrom s.mem outputBase 0 ((s.requested r).record.take (bus.stored 0 8)) := by
  unfold saveField
  dsimp only
  split
  · exact .inl rfl
  · refine .inr ?_
    rw [writeBytes_eq]
    rfl

/-- **A save of the LED states**, complete or not, does not change the stored configuration. -/
theorem loadConfig_saveField (s : Storage) (r : LedSave) (bus : Bus) :
    loadConfig (s.saveField r bus).mem = loadConfig s.mem := by
  rcases s.mem_saveField r bus with h | h
  · rw [h]
  · rw [h, loadConfig_writeFrom_leds]
    exact List.length_take_le' _ _

/-- **A save of a configuration**, complete or not, does not change the stored LED states. -/
theorem loadState_saveConfig (mem : Memory) (c : NetworkConfig) (bus : Bus) :
    loadState (saveConfig mem c bus).1 = loadState mem := by
  rw [saveConfig, writeBytes_eq, loadState_writeFrom_config]
  rw [← c.length_toBytes]
  exact List.length_take_le' _ _

/-- **A complete save of a configuration** is loaded. -/
theorem loadConfig_saveConfig {mem : Memory} {c : NetworkConfig} {bus : Bus} (hc : c.WellFormed)
    (hok : (saveConfig mem c bus).2 = true) : loadConfig (saveConfig mem c bus).1 = c := by
  have hall : bus.ok 0 configLen = true := by rwa [ok_saveConfig] at hok
  have hdrop : (readBytes mem configBase configLen).drop configLen = [] :=
    List.drop_of_length_le (by rw [length_readBytes])
  rw [loadConfig, readBytes_saveConfig, Bus.stored_of_ok hall, hdrop, List.append_nil,
    List.take_of_length_le c.length_toBytes.le, NetworkConfig.fromBytes_toBytes hc,
    Option.getD_some]

end Storage

/-- The save writes a configuration: its form is accepted. -/
def Save.WritesConfig (current : NetworkConfig) : Save → Prop
  | .leds _ _ => False
  | .config body _ => (parseForm body current).isSome

/-- **The records are independent.** From any contents of the EEPROM, after any saves over any
bus: an LED save does not change the configuration that is loaded, and a configuration save does
not change the LED states that are loaded. A configuration that was saved without an error is
loaded until the next save of one. -/
theorem saves_independent {mem : Memory} {l : List Save} {s : Storage}
    (hrun : storageSystem.Run (Storage.boot mem) l s) :
    (∀ r bus, loadConfig (s.step (.leds r bus)).mem = loadConfig s.mem) ∧
      (∀ body bus, loadState (s.step (.config body bus)).mem = loadState s.mem) ∧
        ∀ body bus c, parseForm body (loadConfig mem) = some c →
          (saveConfig s.mem c bus).2 = true →
            ∀ l' t, storageSystem.Run (s.step (.config body bus)) l' t →
              (∀ e ∈ l', ¬ e.WritesConfig (loadConfig mem)) → loadConfig t.mem = c := by
  have hcfg : s.cfg = loadConfig mem := Storage.cfg_of_run hrun
  refine ⟨fun r bus => s.loadConfig_saveField r bus, fun body bus => ?_, ?_⟩
  · cases hparse : parseForm body s.cfg with
    | none => rw [Storage.step_config_of_refused hparse]
    | some c => rw [Storage.mem_step_config hparse, Storage.loadState_saveConfig]
  · intro body bus c hparse hok l' t hlater hquiet
    have hsaved : loadConfig (s.step (.config body bus)).mem = c := by
      rw [Storage.mem_step_config (hcfg.symm ▸ hparse)]
      exact Storage.loadConfig_saveConfig
        (wellFormed_parseForm hparse (wellFormed_loadConfig mem)) hok
    -- no later save writes the record, and all of them parse against the same configuration
    have hinv : t.cfg = loadConfig mem ∧ loadConfig t.mem = c := by
      refine (hlater.guarded_of_forall hquiet).invariant
        (P := fun u => u.cfg = loadConfig mem ∧ loadConfig u.mem = c) ?_
        ⟨(Storage.cfg_step s _).trans hcfg, hsaved⟩
      rintro u e _ ⟨hucfg, hu⟩ ⟨hno, rfl⟩
      refine ⟨(Storage.cfg_step u e).trans hucfg, ?_⟩
      cases e with
      | leds r bus => exact (u.loadConfig_saveField r bus).trans hu
      | config body bus =>
        have hrefused : parseForm body u.cfg = none := by
          rw [hucfg]
          exact Option.not_isSome_iff_eq_none.mp hno
        rw [Storage.step_config_of_refused hrefused]
        exact hu
    exact hinv.2

/-- A saved address is loaded after a later LED save that fails. -/
theorem saves_independent_address :
    ∃ c, parseForm "ip=10.0.0.5".toList (loadConfig fun _ => 0xFF) = some c ∧
      ∃ t : Storage, storageSystem.Run (Storage.boot fun _ => 0xFF)
        [.config "ip=10.0.0.5".toList Bus.allDone,
          .leds (.led1 true) fun _ => .failed true] t ∧ loadConfig t.mem = c := by
  obtain ⟨c, hc⟩ : ∃ c, parseForm "ip=10.0.0.5".toList (loadConfig fun _ => 0xFF) = some c :=
    Option.isSome_iff_exists.mp (by decide +kernel)
  have hsaved : (saveConfig (fun _ => 0xFF) c Bus.allDone).2 = true := by
    rw [ok_saveConfig, Bus.ok_allDone]
  have hled : ∀ e ∈ [Save.leds (.led1 true) fun _ => .failed true],
      ¬ e.WritesConfig (loadConfig fun _ => 0xFF) := by
    intro e he
    rw [List.mem_singleton.mp he]
    exact id
  let saved := (Storage.boot fun _ => 0xFF).step (.config "ip=10.0.0.5".toList Bus.allDone)
  let t := saved.step (.leds (.led1 true) fun _ => .failed true)
  have hlater : storageSystem.Run saved [.leds (.led1 true) fun _ => .failed true] t :=
    .cons rfl (.nil t)
  refine ⟨c, hc, t, .cons rfl hlater, ?_⟩
  exact (saves_independent (.nil (Storage.boot fun _ => 0xFF))).2.2 _ _ c hc hsaved _ t hlater hled

/-! ### The saves of the board -/

namespace Board

/-- What the board stores and caches. -/
def storage (b : Board) : Storage := ⟨b.mem, b.cache, b.cfg⟩

/-- What is stored and cached once the record is written from its `n`-th byte on. -/
def written (b : Board) (j : Job) (n : ℕ) : Storage where
  mem := writeFrom b.mem j.base n (j.bytes.drop n)
  cache := match j with
    | .leds s => some s
    | .config _ => b.cache
  cfg := b.cfg

theorem written_leds (b : Board) (s : OutputState) :
    b.written (.leds s) 0 = ⟨writeFrom b.mem outputBase 0 s.record, some s, b.cfg⟩ := by
  unfold written
  rw [List.drop_zero, Job.bytes, Job.base]

theorem written_config (b : Board) (c : NetworkConfig) :
    b.written (.config c) 0 = ⟨writeFrom b.mem configBase 0 c.toBytes, b.cache, b.cfg⟩ := by
  unfold written
  rw [List.drop_zero, Job.bytes, Job.base]

/-- One byte more, and the same remains to be written. -/
theorem written_writeNext {b : Board} {t : Task} {j : Job} {n : ℕ} (hn : n < j.bytes.length) :
    (b.writeNext t j n).written j (n + 1) = b.written j n := by
  have hbyte : j.bytes.getD n 0 = j.bytes[n] := by
    rw [List.getD, List.getElem?_eq_getElem hn, Option.getD_some]
  have hmem : (b.writeNext t j n).mem =
      writeByte b.mem (j.base + UInt8.ofNat n) (j.bytes.getD n 0) := rfl
  have hcfg : (b.writeNext t j n).cfg = b.cfg := rfl
  have hcache : (b.writeNext t j n).cache = b.cache := rfl
  unfold written
  rw [hmem, hcfg, hcache, List.drop_eq_getElem_cons hn, writeFrom, hbyte]

theorem storage_finish {b : Board} {t : Task} {j : Job} {n : ℕ} (hn : j.bytes.length ≤ n) :
    (b.finish t j).storage = b.written j n := by
  unfold written
  rw [List.drop_of_length_le hn, writeFrom]
  cases j <;> rfl

/-- **A write that runs on** stores the rest of its bytes. -/
theorem run_writeCycles {b : Board} {t : Task} {j : Job} {n k : ℕ}
    (hphase : b.phase t = .writing j n) (hlen : n + k = j.bytes.length) :
    ∃ b', boardSystem.Run b (List.replicate (k + 1) (.writeCycle t)) b' ∧
      b'.storage = b.written j n := by
  induction k generalizing b n with
  | zero =>
    have hstep : b.step (.writeCycle t) = some (b.finish t j) := by
      rw [step, hphase]
      dsimp only
      rw [if_neg (by omega)]
    exact ⟨b.finish t j, .cons hstep (.nil _), storage_finish (by omega)⟩
  | succ k ih =>
    have hlt : n < j.bytes.length := by omega
    have hstep : b.step (.writeCycle t) = some (b.writeNext t j n) := by
      rw [step, hphase]
      dsimp only
      rw [if_pos hlt]
    have hnext : (b.writeNext t j n).phase t = .writing j (n + 1) := Function.update_self _ _ _
    obtain ⟨b', hrun, hb'⟩ := ih hnext (by omega)
    exact ⟨b', .cons hstep hrun, hb'.trans (written_writeNext hlt)⟩

/-- A task that finds the mutex free writes its whole record. -/
theorem run_lock {b : Board} (hfree : b.holder = none) (t : Task) (j : Job) :
    ∃ l b', boardSystem.Run (b.lock t j) l b' ∧ b'.storage = b.written j 0 := by
  have hpos := j.length_pos
  have hphase : (writeNext { b with holder := some t } t j 0).phase t = .writing j 1 :=
    Function.update_self _ _ _
  obtain ⟨b', hrun, hb'⟩ := run_writeCycles hphase (Nat.add_sub_of_le hpos)
  rw [lock, if_pos hfree]
  exact ⟨_, b', hrun, hb'.trans (written_writeNext hpos)⟩

/-- **An undisturbed LED save of the board** is one of the storage, over a bus without errors. -/
theorem run_saveField {b : Board} (hfree : b.holder = none) (r : LedSave) :
    ∃ l b', boardSystem.Run (b.saveField r.update) l b' ∧
      b'.storage = b.storage.saveField r Bus.allDone := by
  have hboard : b.saveField r.update =
      if b.cache = some (b.storage.requested r) then b
      else b.lock .mqtt (.leds (b.storage.requested r)) := rfl
  rw [hboard, Storage.saveField]
  by_cases hskip : b.cache = some (b.storage.requested r)
  · refine ⟨[], b, ?_, (if_pos hskip).symm⟩
    rw [if_pos hskip]
    exact .nil b
  · obtain ⟨l, b', hrun, hb'⟩ := run_lock hfree .mqtt (.leds (b.storage.requested r))
    refine ⟨l, b', ?_, ?_⟩
    · rwa [if_neg hskip]
    · have hcache : b.storage.cache ≠ some (b.storage.requested r) := hskip
      rw [if_neg hcache, writeBytes_eq, Bus.ok_allDone, Bus.stored_of_ok (Bus.ok_allDone _ _),
        List.take_length, hb', written_leds]
      rfl

/-- **An undisturbed configuration save of the board** is one of the storage, too. -/
theorem run_save {b : Board} (hfree : b.holder = none) {k : Socket}
    (hidle : b.phase (.web k) = .idle) (body : Str) :
    ∃ l b', boardSystem.Run b (.save k body :: l) b' ∧
      b'.storage = b.storage.step (.config body Bus.allDone) := by
  have hcfg : b.storage.cfg = b.cfg := rfl
  cases hparse : parseForm body b.cfg with
  | none =>
    have hstep : b.step (.save k body) = some b := by
      rw [step, if_pos hidle, hparse]
    exact ⟨[], b, .cons hstep (.nil b), (Storage.step_config_of_refused hparse _).symm⟩
  | some c =>
    have hstep : b.step (.save k body) =
        some (lock { b with submitted := c :: b.submitted } (.web k) (.config c)) := by
      rw [step, if_pos hidle, hparse]
    obtain ⟨l, b', hrun, hb'⟩ :=
      run_lock (b := { b with submitted := c :: b.submitted }) hfree (.web k) (.config c)
    refine ⟨l, b', .cons hstep hrun, ?_⟩
    have hstored : b.storage.step (.config body Bus.allDone) =
        ⟨(saveConfig b.mem c Bus.allDone).1, b.cache, b.cfg⟩ := by
      rw [Storage.step, hcfg, hparse]
      rfl
    rw [hstored, saveConfig, writeBytes_eq, Bus.stored_of_ok (Bus.ok_allDone _ _),
      List.take_length, hb', written_config]

end Board

/-! ### What can be loaded -/

/-- **What the configuration loader accepts.** A byte image is read exactly when it is a valid
record, and then field by field; and whatever the EEPROM holds, and whether or not it can be
read, what is loaded has a prefix length in `1..=32`, a nonzero port and texts without NUL. -/
theorem record_read_exactly :
    (∀ b, (∃ c, NetworkConfig.fromBytes b = some c) ↔ ValidRecord b) ∧
      (∀ b c, NetworkConfig.fromBytes b = some c →
        ∀ f, RecordField.stored c f = RecordField.value b f) ∧
        ∀ readOk mem, (loadConfigRead readOk mem).WellFormed := by
  refine ⟨fun b => ⟨?_, fun h => ?_⟩, fun b c h f => ?_, fun readOk mem => ?_⟩
  · rintro ⟨c, hc⟩
    exact (fromBytes_eq_some_iff.mp hc).1
  · exact Option.isSome_iff_exists.mp h.isSome_fromBytes
  · exact ((fromBytes_eq_some_iff.mp h).2 f).symm
  · cases readOk with
    | true => exact wellFormed_loadConfig mem
    | false => exact NetworkConfig.wellFormed_default

end Jzf407
