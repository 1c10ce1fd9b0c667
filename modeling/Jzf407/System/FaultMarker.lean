import Jzf407.System.MqttTrace

/-!
# The reset reason

The device says with every connection why it was last reset. It reads this at the boot from the
reset flags of the processor, which add up from one reset to the next until they are cleared, and
from a word of memory, which keeps its contents over a reset unless the power goes
(`FaultMarker.readAndClear`). The MQTT task leaves a tag there before it obeys a command to reboot
(`FaultMarker.markRemoteReboot`).

The device may be reset any number of times before a boot gets as far as reading them.
`reason_of_boot` says which reason is read: the first, in a fixed order of `precedence`, of those
that apply to any of the resets since the boot before (`explaining`). It is stated on what caused
the resets and not on flags and words; `FaultMarker.readAndClear_eq_explaining` is the step between
the two. That the tags of a stack overflow and of a failed allocation are never read is part of it:
nothing in the device leaves them.

Two things are assumed. Which flags a reset raises is for the processor to say (`Raises`): each
cause has its own, a power-on may raise that of a brown-out, too, and any reset that of the pin. And
a word that the memory comes back with, after it has lost its contents, must not happen to be
one of the `tags`.

`rebootSystem` has the device with the broker, and resets and boots as separate events: between
them the tasks do not run, and other parties go on. `diag_remoteReboot_iff` follows the reason to
the packet that carries it to the broker.
-/

namespace Jzf407

open Foundation

/-! ### Flags and marker -/

/-- The reset flags that are read. -/
inductive ResetFlag
  | porrstf
  | borrstf
  | wdgrstf
  | sftrstf
  | padrstf
  deriving DecidableEq, Repr

/-- What resets the processor; the flags of what is `other` are not read. -/
inductive ResetCause
  | powerOn
  | brownOut
  | iwdg
  | software
  | pin
  | other
  deriving DecidableEq, Repr

/-- A reset, and what is in the word of the marker when the memory has lost its contents. -/
structure Reset where
  cause : ResetCause
  ram : Option UInt32
  deriving DecidableEq, Repr

/-- The flags that the processor raises at a reset: each cause has its own, and a power-on that of
a brown-out too. The flag of the pin may come with any cause, for every reset drives the pin. -/
structure Raises (raises : ResetCause → ResetFlag → Bool) : Prop where
  porrstf : ∀ c, raises c .porrstf = true ↔ c = .powerOn
  borrstf : ∀ c, c ≠ .powerOn → (raises c .borrstf = true ↔ c = .brownOut)
  wdgrstf : ∀ c, raises c .wdgrstf = true ↔ c = .iwdg
  sftrstf : ∀ c, raises c .sftrstf = true ↔ c = .software

def tagStackOverflow : UInt32 := 0xDEAD0001

def tagMallocFail : UInt32 := 0xDEAD0002

def tagRemoteReboot : UInt32 := 0xDEAD0003

def tagClear : UInt32 := 0x00000000

/-- The words that are read as a reason. -/
def tags : List UInt32 := [tagStackOverflow, tagMallocFail, tagRemoteReboot]

/-- The word of the marker and the reset flags. -/
structure FaultMarker where
  marker : UInt32
  csr : ResetFlag → Bool

namespace FaultMarker

/-- Nothing is marked and no flag is set. -/
def clear : FaultMarker := ⟨tagClear, fun _ => false⟩

/-- **Read the reason of the reset**, then clear the marker and the flags. -/
def readAndClear (f : FaultMarker) : ResetReason × FaultMarker :=
  let reason :=
    if f.marker = tagStackOverflow then .stackOverflow
    else if f.marker = tagMallocFail then .mallocFailed
    else if f.marker = tagRemoteReboot then .remoteReboot
    else if f.csr .porrstf then .powerOn
    else if f.csr .borrstf then .brownOut
    else if f.csr .wdgrstf then .iwdgTimeout
    else if f.csr .sftrstf then .software
    else if f.csr .padrstf then .nrstPin
    else .unknown
  (reason, clear)

/-- Leave the tag of a reboot by command. -/
def markRemoteReboot (f : FaultMarker) : FaultMarker := { f with marker := tagRemoteReboot }

/-- A reset adds its flags to those that are set. -/
def reset (raises : ResetCause → ResetFlag → Bool) (f : FaultMarker) (r : Reset) : FaultMarker where
  marker := r.ram.getD f.marker
  csr flag := f.csr flag || raises r.cause flag

/-! ### Several resets -/

variable {raises : ResetCause → ResetFlag → Bool}

/-- **The flags add up.** -/
theorem csr_foldl_reset (f : FaultMarker) (rs : List Reset) (flag : ResetFlag) :
    (rs.foldl (reset raises) f).csr flag = true ↔
      f.csr flag = true ∨ ∃ r ∈ rs, raises r.cause flag = true := by
  induction rs generalizing f with
  | nil => simp
  | cons r rs ih =>
    rw [List.foldl_cons, ih, reset, Bool.or_eq_true, or_assoc]
    simp only [List.mem_cons, exists_eq_or_imp]

/-- Memory that keeps its contents keeps the marker. -/
theorem marker_foldl_reset_of_kept (f : FaultMarker) {rs : List Reset}
    (h : ∀ r ∈ rs, r.ram = none) : (rs.foldl (reset raises) f).marker = f.marker := by
  induction rs generalizing f with
  | nil => rfl
  | cons r rs ih =>
    obtain ⟨hr, hrs⟩ := List.forall_mem_cons.mp h
    rw [List.foldl_cons, ih _ hrs, reset, hr, Option.getD_none]

/-- Otherwise the marker is what one of the resets has left there. -/
theorem marker_foldl_reset_of_lost (raises : ResetCause → ResetFlag → Bool) (f : FaultMarker)
    {rs : List Reset} (h : ∃ r ∈ rs, r.ram ≠ none) :
    ∃ r ∈ rs, r.ram = some (rs.foldl (reset raises) f).marker := by
  induction rs generalizing f with
  | nil => simp at h
  | cons r rs ih =>
    rw [List.foldl_cons]
    by_cases hrs : ∃ r ∈ rs, r.ram ≠ none
    · obtain ⟨x, hx, hram⟩ := ih (f.reset raises r) hrs
      exact ⟨x, List.mem_cons_of_mem r hx, hram⟩
    · have hkept : ∀ x ∈ rs, x.ram = none := by simpa using hrs
      obtain ⟨w, hw⟩ : ∃ w, r.ram = some w := by
        rw [List.exists_mem_cons_iff] at h
        rcases h with hr | hr
        · exact Option.ne_none_iff_exists'.mp hr
        · exact absurd hr hrs
      refine ⟨r, List.mem_cons_self, ?_⟩
      rw [marker_foldl_reset_of_kept _ hkept, reset, hw, Option.getD_some]

end FaultMarker

/-! ### Which reason is read -/

namespace ResetReason

/-- The reason applies to a device that was reset like this, while it was `rebooting` on command
or not. -/
def applies (raises : ResetCause → ResetFlag → Bool) (rebooting : Bool) (rs : List Reset) :
    ResetReason → Bool
  | remoteReboot => rebooting && rs.all fun r => r.ram == none
  | powerOn => rs.any fun r => r.cause == .powerOn
  | brownOut => rs.any fun r => r.cause == .brownOut
  | iwdgTimeout => rs.any fun r => r.cause == .iwdg
  | software => rs.any fun r => r.cause == .software
  | nrstPin => rs.any fun r => raises r.cause .padrstf
  | stackOverflow | mallocFailed | unknown => false

/-- The reasons that are given, in the order of their precedence. -/
def precedence : List ResetReason :=
  [remoteReboot, powerOn, brownOut, iwdgTimeout, software, nrstPin]

/-- **The first reason that applies.** -/
def explaining (raises : ResetCause → ResetFlag → Bool) (rebooting : Bool) (rs : List Reset) :
    ResetReason := (precedence.find? (applies raises rebooting rs)).getD unknown

theorem asStr_injective {r s : ResetReason} (h : r.asStr = s.asStr) : r = s :=
  Option.some.inj (by rw [← ofStr_asStr r, h, ofStr_asStr])

/-- A reason without a place in the order is not given. -/
theorem explaining_ne {raises : ResetCause → ResetFlag → Bool} {rebooting : Bool}
    {rs : List Reset} {reason : ResetReason} (horder : reason ∉ precedence)
    (hunknown : reason ≠ unknown) : explaining raises rebooting rs ≠ reason := by
  intro h
  rw [explaining] at h
  cases hfind : precedence.find? (applies raises rebooting rs) with
  | none =>
    rw [hfind] at h
    exact hunknown h.symm
  | some x =>
    rw [hfind, Option.getD_some] at h
    exact horder (h ▸ List.mem_of_find?_eq_some hfind)

/-- A reboot by command goes before all other reasons. -/
theorem explaining_eq_remoteReboot_iff {raises : ResetCause → ResetFlag → Bool} {rebooting : Bool}
    {rs : List Reset} :
    explaining raises rebooting rs = remoteReboot ↔
      rebooting = true ∧ ∀ r ∈ rs, r.ram = none := by
  have happlies : applies raises rebooting rs remoteReboot = true ↔
      rebooting = true ∧ ∀ r ∈ rs, r.ram = none := by simp [applies]
  rw [← happlies, explaining, precedence]
  constructor
  · intro h
    by_contra hno
    rw [List.find?_cons_of_neg hno] at h
    -- no later reason is that of a command
    cases hfind : List.find? (applies raises rebooting rs)
        [powerOn, brownOut, iwdgTimeout, software, nrstPin] with
    | none =>
      rw [hfind] at h
      cases h
    | some reason =>
      rw [hfind, Option.getD_some] at h
      have hmem := List.mem_of_find?_eq_some hfind
      rw [h] at hmem
      exact absurd hmem (by decide)
  · intro h
    rw [List.find?_cons_of_pos h, Option.getD_some]

end ResetReason

/-- A chain of conditions finds the first of a list that meets its own. -/
theorem ite_eq_find?_getD {α : Type*} {p : α → Bool} {x y d : α} {l : List α} {c : Prop}
    [Decidable c] (hc : c ↔ p x = true) (hy : ¬ c → y = (l.find? p).getD d) :
    (if c then x else y) = ((x :: l).find? p).getD d := by
  by_cases h : c
  · rw [if_pos h, List.find?_cons_of_pos (hc.mp h), Option.getD_some]
  · rw [if_neg h, List.find?_cons_of_neg (mt hc.mpr h), hy h]

variable {raises : ResetCause → ResetFlag → Bool} {rebooting : Bool} {rs : List Reset}

/-- **What is read from flags that have added up**, and from a marker that may have been lost. -/
theorem FaultMarker.readAndClear_eq_explaining (hraises : Raises raises) {f : FaultMarker}
    (hso : f.marker ≠ tagStackOverflow) (hmf : f.marker ≠ tagMallocFail)
    (hmarker : f.marker = tagRemoteReboot ↔ rebooting = true ∧ ∀ r ∈ rs, r.ram = none)
    (hcsr : ∀ flag, f.csr flag = true ↔ ∃ r ∈ rs, raises r.cause flag = true) :
    f.readAndClear.1 = ResetReason.explaining raises rebooting rs := by
  unfold readAndClear ResetReason.explaining ResetReason.precedence
  rw [if_neg hso, if_neg hmf]
  refine ite_eq_find?_getD ?_ fun _ => ite_eq_find?_getD ?_ fun hpor => ite_eq_find?_getD ?_
    fun _ => ite_eq_find?_getD ?_ fun _ => ite_eq_find?_getD ?_ fun _ => ite_eq_find?_getD ?_
    fun _ => rfl
  · simpa [ResetReason.applies] using hmarker
  · simp [hcsr, ResetReason.applies, hraises.porrstf]
  · -- a power-on raises the flag of a brown-out too, but goes before it
    have hno : ∀ r ∈ rs, r.cause ≠ .powerOn := fun r hr h =>
      hpor ((hcsr _).mpr ⟨r, hr, (hraises.porrstf _).mpr h⟩)
    simp only [hcsr, ResetReason.applies, List.any_eq_true, beq_iff_eq]
    exact exists_congr fun r => and_congr_right fun hr => hraises.borrstf _ (hno r hr)
  · simp [hcsr, ResetReason.applies, hraises.wdgrstf]
  · simp [hcsr, ResetReason.applies, hraises.sftrstf]
  · simp [hcsr, ResetReason.applies]

/-- The marker after several resets: that of the last boot, or a word that is read as nothing. -/
theorem FaultMarker.marker_foldl_reset (raises : ResetCause → ResetFlag → Bool) (f : FaultMarker)
    (hram : ∀ r ∈ rs, ∀ w, r.ram = some w → w ∉ tags) :
    ((∀ r ∈ rs, r.ram = none) ∧ (rs.foldl (reset raises) f).marker = f.marker) ∨
      ((∃ r ∈ rs, r.ram ≠ none) ∧ (rs.foldl (reset raises) f).marker ∉ tags) := by
  by_cases hkept : ∀ r ∈ rs, r.ram = none
  · exact .inl ⟨hkept, marker_foldl_reset_of_kept f hkept⟩
  · have hlost : ∃ r ∈ rs, r.ram ≠ none := by simpa using hkept
    obtain ⟨r, hr, hw⟩ := marker_foldl_reset_of_lost raises f hlost
    exact .inr ⟨hlost, hram r hr _ hw⟩

/-- The marker and the flags between a boot and the next reset. -/
def FaultMarker.running (rebooting : Bool) : FaultMarker :=
  if rebooting then clear.markRemoteReboot else clear

/-- **Several resets after a boot**, or after a reboot on command. -/
theorem FaultMarker.readAndClear_foldl_reset (hraises : Raises raises)
    (hram : ∀ r ∈ rs, ∀ w, r.ram = some w → w ∉ tags) :
    (rs.foldl (reset raises) (running rebooting)).readAndClear.1 =
      ResetReason.explaining raises rebooting rs := by
  set f := rs.foldl (reset raises) (running rebooting)
  have hflags : ∀ flag, (running rebooting).csr flag = false :=
    fun flag => by cases rebooting <;> rfl
  have hword := marker_foldl_reset raises (running rebooting) hram
  have hother : ∀ tag ∈ [tagStackOverflow, tagMallocFail], f.marker ≠ tag := by
    intro tag htag heq
    rcases hword with ⟨-, hw⟩ | ⟨-, hw⟩
    · rw [← hw.symm.trans heq] at htag
      cases rebooting <;> exact absurd htag (by decide)
    · exact hw (heq ▸ List.mem_append_left [tagRemoteReboot] htag)
  refine readAndClear_eq_explaining hraises (hother _ (by simp)) (hother _ (by simp)) ?_
    fun flag => ?_
  · rcases hword with ⟨hkept, hw⟩ | ⟨⟨r, hr, hlost⟩, hw⟩
    · rw [hw]
      cases rebooting with
      | false => exact iff_of_false (by decide) fun h => Bool.false_ne_true h.1
      | true => exact iff_of_true rfl ⟨rfl, hkept⟩
    · exact iff_of_false (fun heq => hw (heq ▸ by decide)) fun h => hlost (h.2 r hr)
  · rw [csr_foldl_reset, hflags]
    simp

/-! ### Runs with resets -/

/-- The device with the broker, the marker and the flags, and whether its tasks run. -/
structure RebootNet where
  net : MqttNet
  fault : FaultMarker
  up : Bool

/-- What happens: the parties go on, the processor is reset, or a boot reads why. -/
inductive RebootEvent
  | net (e : MqttEvent)
  | reset (r : Reset)
  | boot (cfg : NetworkConfig)

/-- The steps that the tasks of the device take. -/
def MqttEvent.ofDevice : MqttEvent → Bool
  | .await _ | .takeChange | .deliver _ | .message _ | .relayTask => true
  | _ => false

/-- A reset comes with a boot only. -/
def MqttEvent.isReset : MqttEvent → Bool
  | .reset _ _ => true
  | _ => false

namespace RebootNet

/-- The parties have gone on. The marker is left when a command to reboot is obeyed. -/
def goOn (d : RebootNet) (s : MqttNet) : RebootNet where
  net := s
  fault :=
    if d.net.task.phase ≠ .rebooting ∧ s.task.phase = .rebooting then d.fault.markRemoteReboot
    else d.fault
  up := d.up

/-- **One step.** Between a reset and a boot only the other parties go on. -/
def step (raises : ResetCause → ResetFlag → Bool) (d : RebootNet) : RebootEvent → Option RebootNet
  | .net e =>
      if e.isReset ∨ (e.ofDevice ∧ d.up = false) then none else (d.net.step e).map d.goOn
  | .reset r => some { d with fault := d.fault.reset raises r, up := false }
  | .boot cfg =>
      if d.up then none
      else
        let (reason, fault) := d.fault.readAndClear
        (d.net.step (.reset cfg reason)).map fun s => ⟨s, fault, true⟩

end RebootNet

/-- **The device over its resets.** -/
def rebootSystem (raises : ResetCause → ResetFlag → Bool) : System RebootNet RebootEvent where
  init d := ∃ cfg reason, d = ⟨MqttNet.boot cfg reason, FaultMarker.clear, true⟩
  step d e d' := d.step raises e = some d'

/-! ### What is marked while the tasks run -/

/-- Nothing but a reset follows a command to reboot. -/
theorem MqttTask.resume_of_rebooting {t : MqttTask} (h : t.phase = .rebooting) (now : ℕ)
    (a : Await) : t.resume now a = none := by
  cases a <;> simp [MqttTask.resume, h]

/-- The other parties do not change the task. -/
theorem MqttNet.task_eq_of_not_ofDevice {s s' : MqttNet} {e : MqttEvent} (he : e.isReset = false)
    (hdev : e.ofDevice = false) (hstep : s.step e = some s') : s'.task = s.task := by
  cases e with
  | wait | clientPublish | loseReport | loseMessage => exact Option.some.inj hstep ▸ rfl
  | forward =>
    obtain ⟨_, _, rfl⟩ := Option.map_eq_some_iff.mp hstep
    rfl
  | reset => cases he
  | await | takeChange | deliver | message | relayTask => cases hdev

theorem MqttNet.step_of_rebooting {s : MqttNet} {e : MqttEvent} (hdev : e.ofDevice = true)
    (h : s.task.phase = .rebooting) : s.step e = none := by
  cases e with
  | await a => simp [step, MqttTask.resume_of_rebooting h]
  | deliver i =>
    rw [step]
    split
    · rw [if_neg (by simp [h])]
    · rfl
  | takeChange | message | relayTask => simp [step, h]
  | wait | clientPublish | forward | loseReport | loseMessage | reset => cases hdev

namespace RebootNet

variable {d d' : RebootNet}

/-- Whether the device is about to reset itself, as it was told to. -/
def told (d : RebootNet) : Bool := d.net.task.phase = .rebooting

/-- **The invariant.** -/
structure Inv (d : RebootNet) : Prop where
  reachable : mqttSystem.Reachable d.net
  fault : d.up = true → d.fault = FaultMarker.running d.told

theorem inv_boot {s : MqttNet} (hs : mqttSystem.Reachable s)
    (hphase : s.task.phase = .waitNetwork) : Inv ⟨s, FaultMarker.clear, true⟩ where
  reachable := hs
  fault _ := by simp [FaultMarker.running, told, hphase]

/-- A device that has been told to reboot does nothing else. -/
theorem told_of_goOn {e : MqttEvent} {s : MqttNet} (he : e.isReset = false)
    (hstep : d.net.step e = some s) (h : d.told = true) : s.task = d.net.task := by
  cases hdev : e.ofDevice with
  | false => exact MqttNet.task_eq_of_not_ofDevice he hdev hstep
  | true =>
    rw [MqttNet.step_of_rebooting hdev (of_decide_eq_true h)] at hstep
    cases hstep

/-- The parties go on. -/
theorem Inv.goOn (h : d.Inv) {e : MqttEvent} {s : MqttNet} (he : e.isReset = false)
    (hstep : d.net.step e = some s) : (d.goOn s).Inv where
  reachable := h.reachable.step hstep
  fault hup := by
    rw [RebootNet.goOn, h.fault hup]
    cases htold : d.told with
    | true =>
      have htask := told_of_goOn he hstep htold
      have hphase : d.net.task.phase = .rebooting := of_decide_eq_true htold
      simp [told, htask, hphase]
    | false =>
      have hphase : d.net.task.phase ≠ .rebooting := of_decide_eq_false htold
      by_cases hs : s.task.phase = .rebooting <;>
        simp [told, hphase, hs, FaultMarker.running]

theorem Inv.step (h : d.Inv) {e : RebootEvent} (hstep : d.step raises e = some d') : d'.Inv := by
  cases e with
  | net e =>
    obtain ⟨hno, hsome⟩ := Option.ite_none_left_eq_some.mp hstep
    obtain ⟨s, hs, rfl⟩ := Option.map_eq_some_iff.mp hsome
    exact h.goOn (by simpa using fun he => hno (.inl he)) hs
  | reset r =>
    obtain rfl := Option.some.inj hstep
    exact ⟨h.reachable, fun hup => absurd hup Bool.false_ne_true⟩
  | boot cfg =>
    obtain ⟨-, hsome⟩ := Option.ite_none_left_eq_some.mp hstep
    obtain ⟨s, hs, rfl⟩ := Option.map_eq_some_iff.mp hsome
    exact inv_boot (h.reachable.step hs) (Option.some.inj hs ▸ rfl)

theorem inv_of_reachable (h : (rebootSystem raises).Reachable d) : d.Inv := by
  refine h.invariant ?_ fun d e d' hd hstep => hd.step hstep
  rintro d ⟨cfg, reason, rfl⟩
  exact inv_boot ⟨_, [], ⟨cfg, reason, rfl⟩, .nil _⟩ rfl

/-! ### Resets until a boot -/

/-- The resets of a run. -/
def resets (l : List RebootEvent) : List Reset :=
  l.filterMap fun
    | .reset r => some r
    | _ => none

@[simp]
theorem resets_reset (r : Reset) (l : List RebootEvent) : resets (.reset r :: l) = r :: resets l :=
  rfl

/-- What the other parties do does not touch the device. -/
theorem device_of_down {e : MqttEvent} (hstep : d.step raises (.net e) = some d')
    (hd : d.up = false) :
    d'.net.task = d.net.task ∧ d'.fault = d.fault ∧ d'.up = false := by
  obtain ⟨hno, hsome⟩ := Option.ite_none_left_eq_some.mp hstep
  obtain ⟨s, hs, rfl⟩ := Option.map_eq_some_iff.mp hsome
  have htask : s.task = d.net.task :=
    MqttNet.task_eq_of_not_ofDevice (by simpa using fun he => hno (.inl he))
      (by simpa using fun he => hno (.inr ⟨he, hd⟩)) hs
  refine ⟨htask, ?_, hd⟩
  rw [goOn, htask]
  exact if_neg fun h => h.1 h.2

/-- **Between a reset and a boot** the marker and the flags see the resets alone. -/
theorem fault_of_down {l : List RebootEvent} {t : RebootNet}
    (hrun : (rebootSystem raises).Run d l t) (hl : ∀ cfg, .boot cfg ∉ l) (hd : d.up = false) :
    t.up = false ∧ t.fault = (resets l).foldl (FaultMarker.reset raises) d.fault := by
  induction hrun with
  | nil => exact ⟨hd, rfl⟩
  | @cons d u t e l hstep _ ih =>
    have hrest : ∀ cfg, .boot cfg ∉ l := fun cfg h => hl cfg (List.mem_cons_of_mem e h)
    cases e with
    | net e =>
      obtain ⟨-, hfault, hup⟩ := device_of_down hstep hd
      rw [← hfault]
      exact ih hrest hup
    | reset r =>
      obtain rfl := Option.some.inj hstep
      exact ih hrest rfl
    | boot cfg => exact absurd List.mem_cons_self (hl cfg)

end RebootNet

namespace RebootNet

/-- The marker and the flags at the boot after a reset of a device that was running. -/
theorem readAndClear_of_reset (hraises : Raises raises) {d t : RebootNet}
    (hd : (rebootSystem raises).Reachable d) (hup : d.up = true) {r : Reset} {l : List RebootEvent}
    (hrun : (rebootSystem raises).Run d (.reset r :: l) t) (hl : ∀ cfg, .boot cfg ∉ l)
    (hram : ∀ x ∈ r :: resets l, ∀ w, x.ram = some w → w ∉ tags) :
    t.fault.readAndClear.1 = ResetReason.explaining raises d.told (r :: resets l) := by
  cases hrun with
  | cons hreset hrest =>
    obtain rfl := Option.some.inj hreset
    obtain ⟨-, hfault⟩ := fault_of_down hrest hl rfl
    calc t.fault.readAndClear.1
        = ((r :: resets l).foldl (FaultMarker.reset raises) d.fault).readAndClear.1 := by
          rw [hfault, List.foldl_cons]
      _ = ResetReason.explaining raises d.told (r :: resets l) := by
          rw [(inv_of_reachable hd).fault hup, FaultMarker.readAndClear_foldl_reset hraises hram]

/-- A boot starts the tasks with the reason that it reads. -/
theorem reason_of_step_boot {t u : RebootNet} {cfg : NetworkConfig}
    (h : (rebootSystem raises).step t (.boot cfg) u) :
    u.up = true ∧ u.net.task.reason = t.fault.readAndClear.1 := by
  obtain ⟨-, hsome⟩ := Option.ite_none_left_eq_some.mp h
  obtain ⟨s, hs, rfl⟩ := Option.map_eq_some_iff.mp hsome
  obtain rfl := Option.some.inj hs
  exact ⟨rfl, rfl⟩

end RebootNet

/-- **The reason that is read** at a boot is the first, in the order of precedence, that applies
to any of the resets since the device was last running, however many there were: that it was told
to reboot, as long as the memory has not lost its contents since, and then what reset it. It is
never an overflow of the stack or a failed allocation: nothing leaves their tags. -/
theorem reason_of_boot {raises : ResetCause → ResetFlag → Bool} (hraises : Raises raises)
    {d t u : RebootNet} (hd : (rebootSystem raises).Reachable d) (hup : d.up = true) {r : Reset}
    {l : List RebootEvent} (hrun : (rebootSystem raises).Run d (.reset r :: l) t)
    (hl : ∀ cfg, .boot cfg ∉ l) {cfg : NetworkConfig}
    (hboot : (rebootSystem raises).step t (.boot cfg) u)
    (hram : ∀ x ∈ r :: RebootNet.resets l, ∀ w, x.ram = some w → w ∉ tags) :
    u.net.task.reason = ResetReason.explaining raises d.told (r :: RebootNet.resets l) ∧
      u.net.task.reason ≠ .stackOverflow ∧ u.net.task.reason ≠ .mallocFailed := by
  have hreason := (RebootNet.reason_of_step_boot hboot).2.trans
    (RebootNet.readAndClear_of_reset hraises hd hup hrun hl hram)
  refine ⟨hreason, ?_, ?_⟩
  · exact hreason ▸ ResetReason.explaining_ne (by decide) (by decide)
  · exact hreason ▸ ResetReason.explaining_ne (by decide) (by decide)

/-- The flags as the processor raises them. -/
def raisesF407 : ResetCause → ResetFlag → Bool
  | .powerOn, flag => flag == .porrstf || flag == .borrstf || flag == .padrstf
  | .brownOut, flag => flag == .borrstf || flag == .padrstf
  | .iwdg, flag => flag == .wdgrstf || flag == .padrstf
  | .software, flag => flag == .sftrstf || flag == .padrstf
  | .pin, flag | .other, flag => flag == .padrstf

theorem raises_raisesF407 : Raises raisesF407 where
  porrstf c := by cases c <;> decide
  borrstf c hc := by cases c <;> first | decide | exact absurd rfl hc
  wdgrstf c := by cases c <;> decide
  sftrstf c := by cases c <;> decide

/-- A connection on which a command to reboot comes in. -/
def toldToReboot : List RebootEvent :=
  ([.await .networkUp, .await (.tcp true), .await (.connack true), .await (.published true),
    .await (.published true)] ++ List.replicate 6 (.await (.subscribed true)) ++
  [.await (.header true), .message ⟨topicReboot, [], false⟩] : List MqttEvent).map .net

theorem exists_toldToReboot :
    ∃ d, (rebootSystem raisesF407).Reachable d ∧ (d.up && d.told) = true :=
  System.Reachable.exists_of_foldlM (S := rebootSystem raisesF407) (l := toldToReboot)
    (f := RebootNet.step raisesF407) (fun _ _ _ _ hstep => hstep) ⟨.default, .powerOn, rfl⟩
    (by decide +kernel)

/-- What follows: two resets and a boot. -/
theorem exists_rebooted (d : RebootNet) :
    ∃ t u now reason,
      (rebootSystem raisesF407).Run d [.reset ⟨.software, none⟩, .reset ⟨.iwdg, none⟩] t ∧
      (rebootSystem raisesF407).step t (.boot .default) u ∧
      u.net.task = MqttTask.boot .default reason now :=
  ⟨_, _, _, _, .cons rfl (.cons rfl (.nil _)), rfl, rfl⟩

/-- A device that was told to reboot, and was reset by its watchdog, too, before it came up. -/
theorem reason_of_boot_toldToReboot :
    ∃ u, (rebootSystem raisesF407).Reachable u ∧ u.net.task.reason = .remoteReboot := by
  obtain ⟨d, hd, hcheck⟩ := exists_toldToReboot
  obtain ⟨hup, htold⟩ := Bool.and_eq_true_iff.mp hcheck
  obtain ⟨t, u, -, -, hrun, hboot, -⟩ := exists_rebooted d
  refine ⟨u, (hd.run hrun).step hboot, ?_⟩
  rw [(reason_of_boot raises_raisesF407 hd hup hrun (by simp) hboot
    (by simp [RebootNet.resets])).1, htold]
  decide

/-! ### What the broker is told -/

/-- What is published as the reset reason is this text. -/
def Entry.Diag (text : List UInt8) : Entry → Prop
  | sent (.publish topic payload _) => topic = topicDiag → payload = text
  | _ => True

/-- **What is published as the reset reason** is the text of it. -/
theorem MqttTask.Talks.diag {t : MqttTask} (h : t.Talks) :
    ∀ e ∈ t.entries, e.Diag (asBytes t.reason.asStr) := by
  refine h.log.legal.forall ?_ fun b hb => ?_
  · exact forall_mem_mqttPreamble trivial (fun htopic => absurd htopic (by decide)) (fun _ => rfl)
      fun _ _ => trivial
  · have hother : ∀ topic payload, topic ≠ topicDiag →
        (Entry.sent (publishQos0 topic payload)).Diag (asBytes t.reason.asStr) :=
      fun _ _ hne htopic => absurd htopic hne
    cases hb with
    | heartbeat => simpa using hother _ _ (by decide)
    | keepAlive => simp [Entry.Diag]
    | report relayOn => simpa using hother _ _ (by decide)
    | message p hp => simp [Entry.Diag]
    | answer p hp => exact List.forall_mem_cons.mpr ⟨trivial, by simpa using hother _ _ (by decide)⟩

namespace RebootNet

/-- Until the next reset the task keeps what it was started with. -/
theorem start_of_run {l : List RebootEvent} {u v : RebootNet}
    (hrun : (rebootSystem raises).Run u l v) (hl : resets l = []) (hu : u.up = true) :
    v.net.task.start = u.net.task.start := by
  induction hrun with
  | nil => rfl
  | @cons u w v e l hstep _ ih =>
    cases e with
    | net e =>
      obtain ⟨hno, hsome⟩ := Option.ite_none_left_eq_some.mp hstep
      obtain ⟨s, hs, rfl⟩ := Option.map_eq_some_iff.mp hsome
      refine (ih hl hu).trans ?_
      rcases (MqttNet.taskStep_of_step hs).start_eq with hstart | ⟨cfg, reason, rfl, -⟩
      · exact hstart
      · exact absurd (.inl rfl) hno
    | reset r => cases hl
    | boot cfg => exact absurd hu (Option.ite_none_left_eq_some.mp hstep).1

end RebootNet

/-- **The broker is told `remote_reboot`** after a boot exactly when the device was reset while it
obeyed a command to reboot, and its memory has not lost its contents since. -/
theorem diag_remoteReboot_iff {raises : ResetCause → ResetFlag → Bool} (hraises : Raises raises)
    {d t u v : RebootNet} (hd : (rebootSystem raises).Reachable d) (hup : d.up = true) {r : Reset}
    {l l' : List RebootEvent} (hrun : (rebootSystem raises).Run d (.reset r :: l) t)
    (hl : ∀ cfg, .boot cfg ∉ l) {cfg : NetworkConfig}
    (hboot : (rebootSystem raises).step t (.boot cfg) u)
    (hram : ∀ x ∈ r :: RebootNet.resets l, ∀ w, x.ram = some w → w ∉ tags)
    (hrun' : (rebootSystem raises).Run u l' v) (hl' : RebootNet.resets l' = [])
    {payload : List UInt8} {retain : Bool}
    (hsent : .sent (.publish topicDiag payload retain) ∈ v.net.task.entries) :
    payload = asBytes "remote_reboot".toList ↔
      d.net.task.phase = .rebooting ∧ ∀ x ∈ r :: RebootNet.resets l, x.ram = none := by
  have hu : (rebootSystem raises).Reachable u := ((hd.run hrun).step hboot)
  obtain ⟨huup, hread⟩ := RebootNet.reason_of_step_boot hboot
  -- what is sent is the reason that the boot has read
  have htalks := talks_of_reachable (RebootNet.inv_of_reachable (hu.run hrun')).reachable
  have hreason : v.net.task.reason = ResetReason.explaining raises d.told
      (r :: RebootNet.resets l) :=
    calc v.net.task.reason = u.net.task.reason :=
          congrArg Prod.snd (RebootNet.start_of_run hrun' hl' huup)
      _ = ResetReason.explaining raises d.told (r :: RebootNet.resets l) :=
          hread.trans (RebootNet.readAndClear_of_reset hraises hd hup hrun hl hram)
  rw [htalks.diag _ hsent rfl, hreason]
  calc asBytes (ResetReason.explaining raises d.told (r :: RebootNet.resets l)).asStr =
        asBytes "remote_reboot".toList
      ↔ ResetReason.explaining raises d.told (r :: RebootNet.resets l) = .remoteReboot :=
        ⟨fun h => ResetReason.asStr_injective (asBytes_injective h), fun h => h ▸ rfl⟩
    _ ↔ d.told = true ∧ ∀ x ∈ r :: RebootNet.resets l, x.ram = none :=
        ResetReason.explaining_eq_remoteReboot_iff
    _ ↔ d.net.task.phase = .rebooting ∧ ∀ x ∈ r :: RebootNet.resets l, x.ram = none := by
        rw [RebootNet.told, decide_eq_true_iff]

/-- A connection after a boot, up to the reset reason. -/
theorem exists_diag_sent {u : RebootNet} {cfg : NetworkConfig} {reason : ResetReason} {now : ℕ}
    (hup : u.up = true) (htask : u.net.task = MqttTask.boot cfg reason now) :
    ∃ v payload,
      (rebootSystem raisesF407).Run u [.net (.await .networkUp), .net (.await (.tcp true)),
        .net (.await (.connack true)), .net (.await (.published true))] v ∧
      .sent (.publish topicDiag payload true) ∈ v.net.task.entries := by
  obtain ⟨⟨now', task, relay, toBroker, toDevice, history⟩, fault, up⟩ := u
  obtain rfl : task = MqttTask.boot cfg reason now := htask
  obtain rfl : up = true := hup
  refine ⟨_, asBytes reason.asStr, .cons rfl (.cons rfl (.cons rfl (.cons rfl (.nil _)))), ?_⟩
  exact List.mem_cons_of_mem _ (List.mem_cons_of_mem _ List.mem_cons_self)

/-- The connection after those two resets: `remote_reboot` is handed over on it. -/
theorem diag_remoteReboot_iff_toldToReboot :
    ∃ v, (rebootSystem raisesF407).Reachable v ∧
      .sent (.publish topicDiag (asBytes "remote_reboot".toList) true) ∈ v.net.task.entries := by
  obtain ⟨d, hd, hcheck⟩ := exists_toldToReboot
  obtain ⟨hup, htold⟩ := Bool.and_eq_true_iff.mp hcheck
  obtain ⟨t, u, now, reason, hrun, hboot, htask⟩ := exists_rebooted d
  obtain ⟨v, payload, hrun', hsent⟩ :=
    exists_diag_sent (RebootNet.reason_of_step_boot hboot).1 htask
  have hpayload : payload = asBytes "remote_reboot".toList :=
    (diag_remoteReboot_iff raises_raisesF407 hd hup hrun (by simp) hboot
      (by simp [RebootNet.resets]) hrun' rfl hsent).mpr ⟨of_decide_eq_true htold, by decide⟩
  exact ⟨v, ((hd.run hrun).step hboot).run hrun', hpayload ▸ hsent⟩

end Jzf407
