import Jzf407.System.Board

/-!
# Resets and writes

A reset by one task may find another task's write half done, and then the configuration
loaded afterwards is made of two (`reboot_during_save`). The invariant `Board.Inv` carries what
holds in any case: a task that writes holds the mutex, the bytes it has written are in place, and as
long as no configuration is half written, the stored one is whole (`Board.Stored`).

The invariant is kept by every step (`Board.Inv.step`), and the three steps that matter have a lemma
each: taking the mutex (`Board.Inv.lock`), writing the next byte (`Board.Inv.writeNext`) and the
end of a write (`Board.Inv.release`). That the two records do not overlap is used in one place
(`loadConfig_write_leds`). A reset keeps it for nothing, since the tasks are then started with
whatever the memory holds. That the new configuration is one that was there before or was submitted
is said of the reset itself (`RebootWhole`).

A reset finds every write whole exactly when it finds the mutex free, or held only through the
write cycle of a last byte (`Board.Inv.not_partWay_iff`); and so it is over whole runs
(`reboots_whole_iff`). After the last byte the write cycle is the only thing left of a write, and
nothing is lost with it.
-/

namespace Jzf407

open Foundation

theorem Job.length_pos (j : Job) : 0 < j.bytes.length := by
  cases j with
  | leds s => exact Nat.zero_lt_succ _
  | config c =>
    rw [Job.bytes, c.length_toBytes]
    decide

namespace Board

/-- The stored configuration is the one the tasks were started with, or one that a save has
submitted since. -/
def Stored (b : Board) : Prop := loadConfig b.mem = b.cfg ∨ loadConfig b.mem ∈ b.submitted

/-- The task writes a configuration and has not written all of it. -/
def SavePartWay (b : Board) (t : Task) : Prop :=
  ∃ c n, b.phase t = .writing (.config c) n ∧ n < c.toBytes.length

/-- **The invariant of the board.** -/
structure Inv (b : Board) : Prop where
  cfg_wf : b.cfg.WellFormed
  submitted_wf : ∀ c ∈ b.submitted, c.WellFormed
  locked : ∀ t j n, b.phase t = .writing j n → b.holder = some t ∧ n ≤ j.bytes.length
  writing : ∀ t, b.holder = some t → ∃ j n, b.phase t = .writing j n
  waiting_submitted : ∀ t c, b.phase t = .waiting (.config c) → c ∈ b.submitted
  writing_submitted : ∀ t c n, b.phase t = .writing (.config c) n → c ∈ b.submitted
  inPlace : ∀ t c n, b.phase t = .writing (.config c) n → Holds b.mem configBase c.toBytes n
  stored : (∀ t, ¬ b.SavePartWay t) → b.Stored

/-! ### The two records -/

/-- **A configuration in place is loaded.** -/
theorem loadConfig_of_holds {mem : Memory} {c : NetworkConfig} (hc : c.WellFormed)
    (h : Holds mem configBase c.toBytes c.toBytes.length) : loadConfig mem = c := by
  have hread := readBytes_of_holds h
  rw [c.length_toBytes] at hread
  rw [loadConfig, hread, NetworkConfig.fromBytes_toBytes hc, Option.getD_some]

/-- The LED record lies outside the configuration record. -/
theorem leds_outside {n : ℕ} (hn : n < 8) {m : ℕ} (hm : m ≤ configLen) :
    Outside (outputBase + UInt8.ofNat n) configBase m := by
  have hlen : configLen = 175 := rfl
  have haddr : (outputBase + UInt8.ofNat n).toNat = n := by
    rw [UInt8.toNat_add, UInt8.toNat_ofNat', Nat.mod_eq_of_lt (show n < 2 ^ 8 by omega)]
    simp only [outputBase, UInt8.reduceToNat, Nat.zero_add]
    exact Nat.mod_eq_of_lt (by omega)
  have hbase : configBase.toNat = 16 := rfl
  exact outside_of_lt (by omega) (by omega)

/-- Writing a LED byte does not change the stored configuration. -/
theorem loadConfig_write_leds {mem : Memory} {n : ℕ} (hn : n < 8) (value : UInt8) :
    loadConfig (writeByte mem (outputBase + UInt8.ofNat n) value) = loadConfig mem := by
  rw [loadConfig, readBytes_of_outside (leds_outside hn le_rfl), loadConfig]

/-! ### Phases -/

@[simp]
theorem phase_setPhase_self (b : Board) (t : Task) (p : Phase) :
    (b.setPhase t p).phase t = p := Function.update_self ..

theorem phase_setPhase_of_ne (b : Board) {t u : Task} (p : Phase) (h : u ≠ t) :
    (b.setPhase t p).phase u = b.phase u := Function.update_of_ne h ..

/-- Only the task that holds the mutex writes. -/
theorem Inv.eq_of_writing {b : Board} (h : Inv b) {t u : Task} {j k : Job} {n m : ℕ}
    (ht : b.phase t = .writing j n) (hu : b.phase u = .writing k m) : u = t :=
  Option.some.inj ((h.locked u k m hu).1.symm.trans (h.locked t j n ht).1)

/-- Without a holder of the mutex nothing is written. -/
theorem Inv.not_writing {b : Board} (h : Inv b) (hfree : b.holder = none) (t : Task) (j : Job)
    (n : ℕ) : b.phase t ≠ .writing j n := by
  intro ht
  rw [(h.locked t j n ht).1] at hfree
  cases hfree

/-! ### Steps -/

theorem inv_boot (mem : Memory) : Inv (boot mem) where
  cfg_wf := wellFormed_loadConfig mem
  submitted_wf := by simp [boot]
  locked := by simp [boot]
  writing := by simp [boot]
  waiting_submitted := by simp [boot]
  writing_submitted := by simp [boot]
  inPlace := by simp [boot]
  stored _ := .inl rfl

/-- A task that does not write may move to any phase in which it does not write. -/
theorem Inv.setPhase {b : Board} (h : Inv b) {t : Task} {p : Phase}
    (hold : ∀ j n, b.phase t ≠ .writing j n) (hnew : ∀ j n, p ≠ .writing j n)
    (hwait : ∀ c, p = .waiting (.config c) → c ∈ b.submitted) : Inv (b.setPhase t p) := by
  -- who writes after the move has written before it
  have hwriting : ∀ u j n, (b.setPhase t p).phase u = .writing j n →
      b.phase u = .writing j n := by
    intro u j n hu
    by_cases hut : u = t
    · rw [hut, phase_setPhase_self] at hu
      exact absurd hu (hnew j n)
    · rwa [phase_setPhase_of_ne b p hut] at hu
  exact {
    cfg_wf := h.cfg_wf
    submitted_wf := h.submitted_wf
    locked := fun u j n hu => h.locked u j n (hwriting u j n hu)
    writing := by
      intro u hu
      obtain ⟨j, n, hj⟩ := h.writing u hu
      have hut : u ≠ t := fun he => hold j n (he ▸ hj)
      exact ⟨j, n, (phase_setPhase_of_ne b p hut).trans hj⟩
    waiting_submitted := by
      intro u c hu
      by_cases hut : u = t
      · rw [hut, phase_setPhase_self] at hu
        exact hwait c hu
      · rw [phase_setPhase_of_ne b p hut] at hu
        exact h.waiting_submitted u c hu
    writing_submitted := fun u c n hu => h.writing_submitted u c n (hwriting u _ n hu)
    inPlace := fun u c n hu => h.inPlace u c n (hwriting u _ n hu)
    stored := by
      intro hno
      refine h.stored fun u ⟨c, n, hu, hlt⟩ => hno u ⟨c, n, ?_, hlt⟩
      have hut : u ≠ t := fun he => hold _ _ (he ▸ hu)
      rwa [phase_setPhase_of_ne b p hut] }

/-- **Writing the next byte.** The task holds the mutex from its first byte on; what it has
written is in place. -/
theorem Inv.writeNext {b : Board} (h : Inv b) {t : Task} {j : Job} {n : ℕ}
    (hself : ∀ u k m, b.phase u = .writing k m → u = t ∧ k = j ∧ m = n)
    (hn : n < j.bytes.length) (hjob : ∀ c, j = .config c → c ∈ b.submitted)
    (hplace : ∀ c, j = .config c → Holds b.mem configBase c.toBytes n) :
    Inv (({ b with holder := some t } : Board).writeNext t j n) := by
  set b' := ({ b with holder := some t } : Board).writeNext t j n with hb'
  have hphase : b'.phase t = .writing j (n + 1) := phase_setPhase_self ..
  have hothers : ∀ u, u ≠ t → b'.phase u = b.phase u := fun u hu => phase_setPhase_of_ne _ _ hu
  have hmem : b'.mem = writeByte b.mem (j.base + UInt8.ofNat n) (j.bytes.getD n 0) := rfl
  -- after the step, too, only `t` writes
  have honly : ∀ u k m, b'.phase u = .writing k m → u = t ∧ k = j ∧ m = n + 1 := by
    intro u k m hu
    by_cases hut : u = t
    · subst hut
      rw [hphase] at hu
      obtain ⟨rfl, rfl⟩ := Phase.writing.inj hu
      exact ⟨rfl, rfl, rfl⟩
    · rw [hothers u hut] at hu
      exact absurd (hself u k m hu).1 hut
  have hnext : ∀ c, j = .config c → Holds b'.mem configBase c.toBytes (n + 1) := by
    rintro c rfl
    have hlen : c.toBytes.length = 175 := c.length_toBytes
    rw [hmem]
    exact (hplace c rfl).writeByte (lt_trans hn (show c.toBytes.length < 256 by omega))
  exact {
    cfg_wf := h.cfg_wf
    submitted_wf := h.submitted_wf
    locked := by
      intro u k m hu
      obtain ⟨rfl, rfl, rfl⟩ := honly u k m hu
      exact ⟨rfl, hn⟩
    writing := by
      intro u hu
      obtain rfl : t = u := Option.some.inj hu
      exact ⟨j, n + 1, hphase⟩
    waiting_submitted := by
      intro u c hu
      by_cases hut : u = t
      · rw [hut, hphase] at hu
        cases hu
      · rw [hothers u hut] at hu
        exact h.waiting_submitted u c hu
    writing_submitted := fun u c m hu => hjob c (honly u _ m hu).2.1.symm
    inPlace := by
      intro u c m hu
      obtain ⟨-, hk, rfl⟩ := honly u _ m hu
      exact hnext c hk.symm
    stored := by
      intro hno
      cases j with
      | config c =>
        -- no configuration is half written, so this byte was its last
        have hlast : n + 1 = c.toBytes.length := by
          by_contra hne
          have hlt : n + 1 < c.toBytes.length := Nat.lt_of_le_of_ne hn hne
          exact hno t ⟨c, n + 1, hphase, hlt⟩
        refine .inr ?_
        rw [loadConfig_of_holds (h.submitted_wf c (hjob c rfl)) (hlast ▸ hnext c rfl)]
        exact hjob c rfl
      | leds s =>
        have hsame : loadConfig b'.mem = loadConfig b.mem := by
          rw [hmem]
          exact loadConfig_write_leds hn _
        -- before the step, too, no configuration is half written: only the LED task writes
        have hbefore : b.Stored := h.stored fun u ⟨c, m, hu, _⟩ => by
          have := (hself u _ m hu).2.1
          cases this
        rw [Stored, hsame]
        exact hbefore }

/-- Changing the mutex or the LED cache while nothing is written. -/
theorem Inv.release {b : Board} (h : Inv b) {t : Task} {j : Job} {p : Phase}
    (ht : b.phase t = .writing j j.bytes.length) (hp : p = .idle ∨ p = .rebooting)
    (cache : Option OutputState) :
    Inv (({ b with holder := none, cache := cache } : Board).setPhase t p) := by
  set b' := ({ b with holder := none, cache := cache } : Board).setPhase t p with hb'
  have hself : b'.phase t = p := phase_setPhase_self ..
  have hothers : ∀ u, u ≠ t → b'.phase u = b.phase u := fun u hu => phase_setPhase_of_ne _ _ hu
  -- only the holder of the mutex was writing, and it has stopped
  have hno : ∀ u k m, b'.phase u ≠ .writing k m := by
    intro u k m hu
    by_cases hut : u = t
    · rw [hut, hself] at hu
      obtain rfl | rfl := hp <;> cases hu
    · rw [hothers u hut] at hu
      exact hut (h.eq_of_writing ht hu)
  exact {
    cfg_wf := h.cfg_wf
    submitted_wf := h.submitted_wf
    locked := fun u k m hu => absurd hu (hno u k m)
    writing := fun u hu => (by cases hu)
    waiting_submitted := by
      intro u c hu
      by_cases hut : u = t
      · rw [hut, hself] at hu
        obtain rfl | rfl := hp <;> cases hu
      · rw [hothers u hut] at hu
        exact h.waiting_submitted u c hu
    writing_submitted := fun u c m hu => absurd hu (hno u _ m)
    inPlace := fun u c m hu => absurd hu (hno u _ m)
    -- the write that ends was complete, so no configuration was part-way before
    stored := fun _ => h.stored fun u ⟨c, m, hu, hlt⟩ => by
      obtain rfl := h.eq_of_writing ht hu
      obtain ⟨rfl, rfl⟩ := Phase.writing.inj (ht.symm.trans hu)
      exact absurd hlt (lt_irrefl _) }

theorem Inv.finish {b : Board} (h : Inv b) {t : Task} {j : Job}
    (ht : b.phase t = .writing j j.bytes.length) : Inv (b.finish t j) := by
  cases j with
  | leds s => exact h.release ht (.inl rfl) (some s)
  | config c => exact h.release ht (.inr rfl) b.cache

/-- Taking the mutex, or waiting for it. -/
theorem Inv.lock {b : Board} (h : Inv b) {t : Task} {j : Job} (ht : b.phase t = .idle)
    (hjob : ∀ c, j = .config c → c ∈ b.submitted) : Inv (b.lock t j) := by
  unfold Board.lock
  split
  · next hfree =>
    exact h.writeNext (fun u k m hu => absurd hu (h.not_writing hfree u k m)) j.length_pos hjob
      fun c _ => holds_zero _ _ _
  · refine h.setPhase (by simp [ht]) (by simp) fun c hc => ?_
    exact hjob c (Phase.waiting.inj hc)

theorem Inv.saveField {b : Board} (h : Inv b) (ht : b.phase .mqtt = .idle)
    (update : OutputState → OutputState) : Inv (b.saveField update) := by
  unfold Board.saveField
  dsimp only
  split
  · exact h
  · exact h.lock ht (by simp)

/-- A submitted configuration is recorded. -/
theorem Inv.submit {b : Board} (h : Inv b) {c : NetworkConfig} (hc : c.WellFormed) :
    Inv { b with submitted := c :: b.submitted } where
  cfg_wf := h.cfg_wf
  submitted_wf d hd := (List.mem_cons.mp hd).elim (fun he => he ▸ hc) (h.submitted_wf d)
  locked := h.locked
  writing := h.writing
  waiting_submitted u d hu := List.mem_cons_of_mem c (h.waiting_submitted u d hu)
  writing_submitted u d n hu := List.mem_cons_of_mem c (h.writing_submitted u d n hu)
  inPlace := h.inPlace
  stored hno := (h.stored hno).imp id (List.mem_cons_of_mem c)

/-- A message saves a field, resets the device, or does nothing. -/
theorem Inv.handleEvent {b : Board} (h : Inv b) (hidle : b.phase .mqtt = .idle)
    (topic : Str) (payload : List UInt8) (retain : Bool) :
    Inv (b.handleEvent topic payload retain) := by
  unfold Board.handleEvent
  split
  · exact h
  · split
    · exact h.saveField hidle _
    · exact h.saveField hidle _
    · exact h.saveField hidle _
    · exact inv_boot b.mem
    · exact h

/-- **Every step keeps the invariant**, resets included. -/
theorem Inv.step {b b' : Board} {e : BoardEvent} (h : Inv b) (hstep : b.step e = some b') :
    Inv b' := by
  cases e with
  | message topic payload retain =>
    rw [Board.step] at hstep
    split at hstep
    · next hidle =>
      obtain rfl := Option.some.inj hstep
      exact h.handleEvent hidle topic payload retain
    · cases hstep
  | save k body =>
    rw [Board.step] at hstep
    split at hstep
    · next hidle =>
      split at hstep
      · next c hparse =>
        obtain rfl := Option.some.inj hstep
        refine (h.submit (wellFormed_parseForm hparse h.cfg_wf)).lock hidle ?_
        rintro d hd
        obtain rfl := Job.config.inj hd
        exact List.mem_cons_self
      · exact Option.some.inj hstep ▸ h
    · cases hstep
  | rebootPost k =>
    rw [Board.step] at hstep
    split at hstep
    · next hidle =>
      obtain rfl := Option.some.inj hstep
      exact h.setPhase (by simp [hidle]) (by simp) (by simp)
    · cases hstep
  | acquire t =>
    rw [Board.step] at hstep
    split at hstep
    · next j hwait =>
      split at hstep
      · next hfree =>
        obtain rfl := Option.some.inj hstep
        -- the mutex was free, so nobody is writing, and this is the first byte
        refine h.writeNext (fun u k m hu => absurd hu (h.not_writing hfree u k m)) j.length_pos
          ?_ fun c _ => holds_zero _ _ _
        rintro c rfl
        exact h.waiting_submitted t c hwait
      · cases hstep
    · cases hstep
  | writeCycle t =>
    rw [Board.step] at hstep
    split at hstep
    · next j n hwriting =>
      obtain rfl := Option.some.inj hstep
      obtain ⟨hholder, hle⟩ := h.locked t j n hwriting
      split
      · next hlt =>
        -- the task holds the mutex already, and takes it once more for the lemma
        have hsame : b = { b with holder := some t } := by rw [← hholder]
        rw [hsame]
        refine h.writeNext ?_ hlt ?_ ?_
        · intro u k m hu
          obtain rfl := h.eq_of_writing hwriting hu
          obtain ⟨rfl, rfl⟩ := Phase.writing.inj (hwriting.symm.trans hu)
          exact ⟨rfl, rfl, rfl⟩
        · rintro c rfl
          exact h.writing_submitted t c n hwriting
        · rintro c rfl
          exact h.inPlace t c n hwriting
      · next hlt =>
        obtain rfl : n = j.bytes.length := Nat.le_antisymm hle (Nat.not_lt.mp hlt)
        exact h.finish hwriting
    · cases hstep
  | rebootDelay k =>
    rw [Board.step] at hstep
    split at hstep
    · obtain rfl := Option.some.inj hstep
      -- after a reset the stored configuration is the one that is loaded, whole or not
      exact inv_boot b.mem
    · cases hstep

end Board

/-! ### Resets -/

/-- A reset loads what the memory holds. -/
theorem eq_boot_of_reboots {b b' : Board} {e : BoardEvent} (hstep : boardSystem.step b e b')
    (hreboot : e.Reboots b) : b' = Board.boot b.mem := by
  cases e with
  | message topic payload retain =>
    obtain ⟨rfl, hcmd⟩ := hreboot
    have hstep' : b.step (.message topic payload false) = some b' := hstep
    rw [Board.step] at hstep'
    split at hstep'
    · rw [← Option.some.inj hstep', Board.handleEvent, hcmd]
      rfl
    · cases hstep'
  | rebootDelay k =>
    have hstep' : b.step (.rebootDelay k) = some b' := hstep
    have hphase : b.phase (.web k) = .rebooting := hreboot
    rw [Board.step, if_pos hphase] at hstep'
    exact (Option.some.inj hstep').symm
  | save | rebootPost | acquire | writeCycle => cases hreboot

/-- A reset finds no write part-way, and loads the configuration that the tasks were started
with, or one that a save has submitted since. -/
def RebootWhole (b : Board) (e : BoardEvent) (b' : Board) : Prop :=
  e.Reboots b → (∀ t, ¬ (b.phase t).PartWay) ∧ (b'.cfg = b.cfg ∨ b'.cfg ∈ b.submitted)

/-- A reset happens while the mutex is free, or held only through the write cycle of a last
byte. -/
def RebootUnlocked (b : Board) (e : BoardEvent) : Prop :=
  e.Reboots b → ∀ t, b.holder = some t → ∃ j, b.phase t = .writing j j.bytes.length

/-- No write is part-way exactly when the mutex is free, or held only through the write cycle
of a last byte. -/
theorem Board.Inv.not_partWay_iff {b : Board} (h : Inv b) :
    (∀ t, ¬ (b.phase t).PartWay) ↔
      ∀ t, b.holder = some t → ∃ j, b.phase t = .writing j j.bytes.length := by
  constructor
  · intro hwhole t hholder
    obtain ⟨j, n, hwriting⟩ := h.writing t hholder
    have hle : n ≤ j.bytes.length := (h.locked t j n hwriting).2
    have hge : ¬ n < j.bytes.length := fun hlt => hwhole t ⟨j, n, hwriting, hlt⟩
    obtain rfl : n = j.bytes.length := Nat.le_antisymm hle (Nat.not_lt.mp hge)
    exact ⟨j, hwriting⟩
  · rintro hunlocked t ⟨j, n, hwriting, hlt⟩
    obtain ⟨k, hdone⟩ := hunlocked t (h.locked t j n hwriting).1
    obtain ⟨rfl, rfl⟩ := Phase.writing.inj (hwriting.symm.trans hdone)
    exact lt_irrefl _ hlt

/-- **One reset**: it is whole exactly when it happens unlocked. -/
theorem rebootWhole_iff {b b' : Board} {e : BoardEvent} (h : Board.Inv b)
    (hstep : boardSystem.step b e b') : RebootWhole b e b' ↔ RebootUnlocked b e := by
  constructor
  · exact fun hwhole hreboot => h.not_partWay_iff.mp (hwhole hreboot).1
  · intro hunlocked hreboot
    have hwhole := h.not_partWay_iff.mpr (hunlocked hreboot)
    refine ⟨hwhole, ?_⟩
    rw [eq_boot_of_reboots hstep hreboot]
    exact h.stored fun t ⟨c, n, hwriting, hlt⟩ => hwhole t ⟨.config c, n, hwriting, hlt⟩

/-- **When resets find whole writes**: every reset of a run finds every write whole exactly
when every reset of it happens unlocked. -/
theorem reboots_whole_iff (l : List BoardEvent) :
    boardSystem.Throughout RebootWhole l ↔
      boardSystem.Throughout (fun b e _ => RebootUnlocked b e) l := by
  refine System.throughout_iff (I := Board.Inv) ?_ ?_ ?_
  · rintro _ ⟨mem, rfl⟩
    exact Board.inv_boot mem
  · intro b e b' hb hstep _
    exact hb.step hstep
  · intro b e b' hb hstep
    exact rebootWhole_iff hb hstep

/-- A save of an address, and a reboot command after its first byte. -/
theorem reboot_during_save : ¬ ∀ l, boardSystem.Throughout RebootWhole l := by
  intro h
  let blank : Board := Board.boot fun _ => 0xFF
  obtain ⟨c, hc⟩ : ∃ c, parseForm "ip=10.0.0.5".toList blank.cfg = some c :=
    Option.isSome_iff_exists.mp (by decide +kernel)
  let saving : Board :=
    ({ blank with submitted := [c] } : Board).lock (.web .a) (.config c)
  let save : BoardEvent := .save .a "ip=10.0.0.5".toList
  let reboot : BoardEvent := .message "stm32/cmd/reboot".toList [] false
  have hsave : boardSystem.step blank save saving := by
    change Board.step blank _ = _
    have hidle : blank.phase (.web .a) = .idle := rfl
    rw [Board.step, if_pos hidle, hc]
    rfl
  have hreboot : boardSystem.step saving reboot saving.safeReboot := rfl
  have hwhole := h [save, reboot] [save] reboot [] blank saving _ rfl ⟨_, rfl⟩
    (.cons hsave (.nil _)) hreboot
  refine (hwhole ⟨rfl, rfl⟩).1 (.web .a) ⟨.config c, 1, rfl, ?_⟩
  rw [Job.bytes, c.length_toBytes]
  decide

end Jzf407
