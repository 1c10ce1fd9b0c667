import Jzf407.Foundation.Transition
import Jzf407.Web.Connection

/-!
# Saves in sequence

Every accepted save makes a new configuration out of the current one. `saveSystem` is the
system of these saves, starting from the configuration of a blank device.

A blank web user clears the stored one, a blank web password keeps it (`webUser_eq_nil_iff`,
`webPass_eq_nil_iff`). The login page demands both fields, so a configuration with one of them empty
that asks for a login locks everyone out (`LoginUsable`). And a user who submits both fields blank
wants no login, but keeps the password, and with it the login.

`SaveKeepsUsable` is what a save should leave behind, and `KeepsLogin` the condition on a save that
does: without a login it submits values for both fields or for neither, and with one it blanks no
web user. `saveKeepsUsable_iff` is the equivalence for one save, `saves_usable_iff` says which runs
never get there: those whose every save meets `KeepsLogin`. One field of the form is enough to lock
the device (`save_locks_out`).
-/

namespace Jzf407

open Foundation

/-- **The configuration under saves**: each label is the body of an accepted save. -/
def saveSystem : System NetworkConfig Str where
  init c := c = NetworkConfig.default
  step c body c' := parseForm body c = some c'

/-- The login page can submit the credentials of this configuration: none are asked for, or
both are nonempty. -/
def LoginUsable (c : NetworkConfig) : Prop :=
  authRequired c = true → c.webUser.chars ≠ [] ∧ c.webPass.chars ≠ []

/-- The body submits a value for the field, and the value is blank. -/
def SubmitsBlank (key : FormKey) (body : Str) : Prop := submitted key body = some []

/-- The body submits a value for the field, and the value is not blank. -/
def SubmitsValue (key : FormKey) (body : Str) : Prop := ∃ v, v ≠ [] ∧ submitted key body = some v

/-- What a save should leave behind: a login that can be used, and none at all when both web
fields were submitted blank. -/
def SaveKeepsUsable (body : Str) (c' : NetworkConfig) : Prop :=
  LoginUsable c' ∧
    (SubmitsBlank .webUser body → SubmitsBlank .webPass body → authRequired c' = false)

/-- The save does not take half of the login: without a login, it submits values for both web
fields or for neither; with one, it does not submit a blank user. -/
def KeepsLogin (c : NetworkConfig) (body : Str) : Prop :=
  if authRequired c = true then ¬ SubmitsBlank .webUser body
  else (SubmitsValue .webUser body ↔ SubmitsValue .webPass body)

theorem authRequired_iff (c : NetworkConfig) :
    authRequired c = true ↔ c.webUser.chars ≠ [] ∨ c.webPass.chars ≠ [] := by
  simp [authRequired, HString.isEmpty]

theorem authRequired_eq_false_iff (c : NetworkConfig) :
    authRequired c = false ↔ c.webUser.chars = [] ∧ c.webPass.chars = [] := by
  simp [authRequired, HString.isEmpty]

theorem loginUsable_default : LoginUsable NetworkConfig.default := by
  intro h
  exact absurd h (by decide)

/-! ### One save -/

/-- The web user after a save is empty iff it is submitted blank, or was empty and is not
submitted. -/
theorem webUser_eq_nil_iff {body : Str} {c c' : NetworkConfig} (h : parseForm body c = some c') :
    c'.webUser.chars = [] ↔
      SubmitsBlank .webUser body ∨ (c.webUser.chars = [] ∧ ¬ SubmitsValue .webUser body) := by
  rw [webUser_parseForm h, SubmitsBlank, SubmitsValue]
  cases submitted .webUser body with
  | none => simp
  | some v =>
    by_cases hv : v = []
    · simp [hv]
    · simp [hv]

/-- The web password after a save is empty iff it was, and no value is submitted. -/
theorem webPass_eq_nil_iff {body : Str} {c c' : NetworkConfig} (h : parseForm body c = some c') :
    c'.webPass.chars = [] ↔ c.webPass.chars = [] ∧ ¬ SubmitsValue .webPass body := by
  rw [webPass_parseForm h, SubmitsValue]
  cases submitted .webPass body with
  | none => simp
  | some v =>
    by_cases hv : v = []
    · simp [hv]
    · simp [hv]

theorem not_submitsValue_of_blank {key : FormKey} {body : Str} (h : SubmitsBlank key body) :
    ¬ SubmitsValue key body := by
  rintro ⟨v, hv, hsub⟩
  exact hv (Option.some.inj (hsub.symm.trans h))

/-- **One save**: from a configuration whose login can be used, a save keeps it so exactly
when it does not take half of the login. -/
theorem saveKeepsUsable_iff {body : Str} {c c' : NetworkConfig} (h : parseForm body c = some c')
    (hc : LoginUsable c) : SaveKeepsUsable body c' ↔ KeepsLogin c body := by
  have huser := webUser_eq_nil_iff h
  have hpass := webPass_eq_nil_iff h
  unfold SaveKeepsUsable LoginUsable KeepsLogin
  rw [authRequired_eq_false_iff, authRequired_iff c']
  by_cases hauth : authRequired c = true
  · -- with a login, the password stays, so the user must
    obtain ⟨hu, hp⟩ := hc hauth
    rw [if_pos hauth]
    have hp' : c'.webPass.chars ≠ [] := fun he => hp (hpass.mp he).1
    have hu' : c'.webUser.chars = [] ↔ SubmitsBlank .webUser body := by
      rw [huser]
      simp [hu]
    constructor
    · exact fun hkeep hblank => (hkeep.1 (.inr hp')).1 (hu'.mpr hblank)
    · intro hno
      exact ⟨fun _ => ⟨fun he => hno (hu'.mp he), hp'⟩, fun hblank _ => absurd hblank hno⟩
  · -- without a login, the new fields are the values submitted
    obtain ⟨hu, hp⟩ := (authRequired_eq_false_iff c).mp (Bool.not_eq_true _ ▸ hauth)
    rw [if_neg hauth]
    have hu' : c'.webUser.chars = [] ↔ ¬ SubmitsValue .webUser body := by
      rw [huser]
      exact ⟨fun hor => hor.elim not_submitsValue_of_blank And.right, fun hno => .inr ⟨hu, hno⟩⟩
    have hp' : c'.webPass.chars = [] ↔ ¬ SubmitsValue .webPass body := by
      rw [hpass]
      exact and_iff_right hp
    constructor
    · rintro ⟨hboth, -⟩
      constructor
      · -- one of the two submitted alone would be asked for, and the other one be missing
        intro hvalue
        by_contra hno
        exact (hboth (.inl fun he => hu'.mp he hvalue)).2 (hp'.mpr hno)
      · intro hvalue
        by_contra hno
        exact (hboth (.inr fun he => hp'.mp he hvalue)).1 (hu'.mpr hno)
    · intro hiff
      refine ⟨?_, fun hblank hblank' => ⟨hu'.mpr (not_submitsValue_of_blank hblank),
        hp'.mpr (not_submitsValue_of_blank hblank')⟩⟩
      rintro (hne | hne)
      · have hvalue := not_not.mp fun hno => hne (hu'.mpr hno)
        exact ⟨hne, fun he => hp'.mp he (hiff.mp hvalue)⟩
      · have hvalue := not_not.mp fun hno => hne (hp'.mpr hno)
        exact ⟨fun he => hu'.mp he (hiff.mpr hvalue), hne⟩

/-! ### Runs of saves -/

/-- **When no run of saves locks the login page out**: exactly when no save takes half of the
login. -/
theorem saves_usable_iff (l : List Str) :
    saveSystem.Throughout (fun _ body c' => SaveKeepsUsable body c') l ↔
      saveSystem.Throughout (fun c body _ => KeepsLogin c body) l := by
  refine System.throughout_iff (I := LoginUsable) ?_ ?_ ?_
  · rintro _ rfl
    exact loginUsable_default
  · intro c body c' hc hstep hkeep
    exact ((saveKeepsUsable_iff hstep hc).mpr hkeep).1
  · intro c body c' hc hstep
    exact saveKeepsUsable_iff hstep hc

/-- The save of a user name alone, on a blank device, asks for a login that the login page
cannot submit. -/
theorem save_locks_out :
    ¬ ∀ l, saveSystem.Throughout (fun _ body c' => SaveKeepsUsable body c') l := by
  intro h
  let locked : NetworkConfig :=
    { NetworkConfig.default with webUser := ⟨"admin".toList, by decide⟩ }
  have hstep : saveSystem.step NetworkConfig.default "wuser=admin&wpass=".toList locked := by
    change parseForm _ _ = some _
    decide +kernel
  have hkeep := (h ["wuser=admin&wpass=".toList] [] _ [] _ _ locked rfl rfl (.nil _) hstep).1
  exact absurd (hkeep (by decide)).2 (by decide)

end Jzf407
